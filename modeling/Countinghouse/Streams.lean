import Mathlib.Logic.Basic

/-!
Messages that are taken in the order in which they were sent. The receiver folds each one
into what it remembers. `Sound` says that every message of a queue fits what the receiver
will remember when it gets to it, which a sender can only promise when nothing overtakes.
-/

namespace Countinghouse.Streams

universe u v
variable {Memory : Type u} {Message : Type v}

/-- What the receiver remembers after the whole queue. -/
def latest (next : Memory → Message → Memory) (memory : Memory) (queue : List Message) : Memory :=
  queue.foldl next memory

def Sound (next : Memory → Message → Memory) (fits : Memory → Message → Prop) : Memory → List Message → Prop
  | _, [] => True
  | memory, message :: rest => fits memory message ∧ Sound next fits (next memory message) rest

variable {next : Memory → Message → Memory} {fits : Memory → Message → Prop} {memory : Memory}
  {queue : List Message} {message : Message}

@[simp]
theorem latest_nil : latest next memory [] = memory := rfl

@[simp]
theorem latest_cons : latest next memory (message :: queue) = latest next (next memory message) queue := rfl

@[simp]
theorem latest_snoc :
    latest next memory (queue ++ [message]) = next (latest next memory queue) message := by
  simp [latest]

/-- A sender goes by what will be remembered after all it has sent. -/
theorem sound_snoc :
    Sound next fits memory (queue ++ [message]) ↔
      Sound next fits memory queue ∧ fits (latest next memory queue) message := by
  induction queue generalizing memory with
  | nil => simp [Sound]
  | cons head rest ih => simp [Sound, ih, and_assoc]

/-- What each message that fits keeps is kept by the whole queue. -/
theorem sound_keeps (holds : Memory → Prop) (sound : Sound next fits memory queue)
    (keeps : ∀ message ∈ queue, ∀ memory, fits memory message → holds memory → holds (next memory message))
    (start : holds memory) :
    holds (latest next memory queue) := by
  induction queue generalizing memory with
  | nil => exact start
  | cons head rest ih =>
      apply ih sound.2
      · intro message member
        exact keeps message (List.mem_cons_of_mem _ member)
      · exact keeps head List.mem_cons_self memory sound.1 start

/-- Each message of the queue fits a memory of which that still holds. -/
theorem sound_member (holds : Memory → Prop) (sound : Sound next fits memory queue)
    (keeps : ∀ message ∈ queue, ∀ memory, fits memory message → holds memory → holds (next memory message))
    (start : holds memory) (member : message ∈ queue) :
    ∃ earlier, holds earlier ∧ fits earlier message := by
  induction queue generalizing memory with
  | nil => cases member
  | cons head rest ih =>
      rcases List.mem_cons.mp member with rfl | later
      · exact ⟨memory, start, sound.1⟩
      · apply ih sound.2 _ _ later
        · intro message member
          exact keeps message (List.mem_cons_of_mem _ member)
        · exact keeps head List.mem_cons_self memory sound.1 start

end Countinghouse.Streams
