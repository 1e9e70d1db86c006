import Countinghouse.PeerChannel

/-!
A channel whose `postMessage` may throw. A payload that cannot be cloned makes it throw
before anything is delivered, in the middle of a send, of a drain that runs while another
call's reply is handled, or of a reply; whatever the code would have done after it is
left out. `clones` says which payloads can be cloned; ids and texts always can.
-/

namespace Countinghouse.PeerClones

open PeerChannel

variable {Payload : Type}

/-- A channel with a record of the replies that came for calls that were waiting. -/
structure Traced (Payload : Type) where
  world : World Payload
  due : List (Nat × Reply Payload)

/-- A channel with its cap, or without one. -/
def start (cap : Option Nat) (onInvoke onClose : Bool) : Traced Payload where
  world :=
    { opened 0 onInvoke onClose with
      chan := { (opened 0 onInvoke onClose : World Payload).chan with maxConcurrentInvokes := cap } }
  due := []

/-! The functions that post, with what is left of them when `postMessage` throws. -/
section Throwing

variable (clones : Payload → Bool)

/-- What `_sendInvoke` leaves, and whether it threw: the counter has gone up. -/
def sendInvokeOrThrow (w : World Payload) (request : Request Payload) : World Payload × Bool :=
  if clones request.input then (sendInvoke w request, false)
  else ({ w with chan := { w.chan with activeSends := w.chan.activeSends + 1 } }, true)

def drainSendQueueOrThrow (w : World Payload) : World Payload × Bool :=
  match w.chan.sendQueue with
  | [] => (w, false)
  | next :: rest =>
      if atCap w.chan.maxConcurrentInvokes w.chan.activeSends then (w, false)
      else sendInvokeOrThrow clones { w with chan := { w.chan with sendQueue := rest } } next

def invokeOrThrow (w : World Payload) (args : Invocation Payload) : World Payload :=
  if w.chan.closed then answer { w with calls := w.calls + 1 } w.calls .peerGone
  else
    let request : Request Payload := { args with id := w.chan.msgID }
    if atCap w.chan.maxConcurrentInvokes w.chan.activeSends then enqueueSend (register w) request
    else (sendInvokeOrThrow clones (register w) request).1

/-- `_handleReply`: the callback of the reply comes after the drain. -/
def handleReplyOrThrow (w : World Payload) (message : Reply Payload) : World Payload :=
  let drained := drainSendQueueOrThrow clones (sendAnswered w message.id)
  if drained.2 then drained.1 else settleReply drained.1 message

def outputClones (data platformMetering : Option Payload) : Bool :=
  data.all clones && platformMetering.all clones

/-- The reply callback: the drain comes after the reply is posted. -/
def replyCallbackOrThrow (w : World Payload) (token id : Nat) (err : Option (String × Option String))
    (data platformMetering : Option Payload) : World Payload :=
  if outputClones clones data platformMetering then replyCallback w token id err data platformMetering
  else
    { w with
      chan := { w.chan with activeDispatches := w.chan.activeDispatches - 1 }
      running := w.running.erase (token, id) }

end Throwing

inductive Event (Payload : Type) where
  | invoke (args : Invocation Payload)
  | reply (token id : Nat) (err : Option (String × Option String)) (data platformMetering : Option Payload)
  | invalidate
  | returned
  | closing
  | deliverInvoke (message : Request Payload)
  | deliverReply (message : Reply Payload)
  | expire (id call : Nat)

/-- When an event can come, as without throws. -/
def enabled (w : World Payload) : Event Payload → Prop
  | .invoke _ | .invalidate => foreignTurn w
  | .reply token id _ _ _ => foreignTurn w ∧ (token, id) ∈ w.running
  | .returned => ∃ rest, w.stack = .user :: rest
  | .closing => ∃ ids rest, w.stack = .closing ids :: rest
  | .deliverInvoke _ => w.stack = [] ∧ w.portClosed = false
  | .deliverReply message => w.stack = [] ∧ w.portClosed = false ∧ message.id ∈ w.wire
  | .expire id call => w.stack = [] ∧ (id, call) ∈ w.timers

def nextWorld (clones : Payload → Bool) (w : World Payload) : Event Payload → World Payload
  | .invoke args => invokeOrThrow clones w args
  | .reply token id err data platformMetering => replyCallbackOrThrow clones w token id err data platformMetering
  | .invalidate => invalidate w
  | .returned => { w with stack := w.stack.tail }
  | .closing =>
      match w.stack with
      | .closing ids :: rest => closeNext w ids rest
      | _ => w
  | .deliverInvoke message => handleInvoke w message
  | .deliverReply message => handleReplyOrThrow clones w message
  | .expire id call => expire w id call

/-- The call that waits for a reply, if any. -/
def waitingFor (w : World Payload) (message : Reply Payload) : Option Nat :=
  (w.chan.pending.find? fun entry => entry.1 == message.id).map Prod.snd

def next (clones : Payload → Bool) (t : Traced Payload) (event : Event Payload) : Traced Payload where
  world := nextWorld clones t.world event
  due :=
    match event with
    | .deliverReply message =>
        match waitingFor t.world message with
        | some call => (call, message) :: t.due
        | none => t.due
    | _ => t.due

/-- Replies have reached their callbacks, the counters count, and nothing is queued below the cap. -/
structure Sound (t : Traced Payload) : Prop where
  reached : ∀ item ∈ t.due, (item.1, replyAnswer item.2) ∈ t.world.answers
  sends : t.world.chan.activeSends = t.world.wire.length
  dispatches : t.world.chan.activeDispatches = t.world.running.length
  sendsFull : t.world.chan.sendQueue ≠ [] →
    atCap t.world.chan.maxConcurrentInvokes t.world.chan.activeSends = true
  dispatchesFull : t.world.chan.dispatchQueue ≠ [] →
    atCap t.world.chan.maxConcurrentInvokes t.world.chan.activeDispatches = true

/-- Nothing that is posted at once or by the drain of the send queue throws, and no reply throws while requests are
queued behind it. -/
def meets (clones : Payload → Bool) (w : World Payload) : Event Payload → Prop
  | .invoke args =>
      w.chan.closed = true ∨ atCap w.chan.maxConcurrentInvokes w.chan.activeSends = true ∨ clones args.input = true
  | .reply _ _ _ data platformMetering =>
      outputClones clones data platformMetering = true ∨ w.chan.dispatchQueue = []
  | .deliverReply _ =>
      ∀ head rest, w.chan.sendQueue = head :: rest →
        atCap w.chan.maxConcurrentInvokes (w.chan.activeSends - 1) = true ∨ clones head.input = true
  | _ => True

/-! Sends. -/
section Sends

variable {clones : Payload → Bool} {w : World Payload}

structure Sends (w : World Payload) : Prop where
  counted : w.chan.activeSends = w.wire.length
  full : w.chan.sendQueue ≠ [] → atCap w.chan.maxConcurrentInvokes w.chan.activeSends = true

/-- Whatever changes, it is not what is sent. -/
theorem Sends.kept {after : World Payload} (sends : Sends w) (cap : after.chan.maxConcurrentInvokes = w.chan.maxConcurrentInvokes)
    (active : after.chan.activeSends = w.chan.activeSends) (wire : after.wire = w.wire)
    (queue : after.chan.sendQueue ≠ [] → w.chan.sendQueue ≠ []) : Sends after := by
  constructor
  · rw [active, wire]
    exact sends.counted
  · intro waiting
    rw [cap, active]
    exact sends.full (queue waiting)

theorem invoke_sends (sends : Sends w) {args : Invocation Payload} (fine : meets clones w (.invoke args)) :
    Sends (invokeOrThrow clones w args) := by
  unfold invokeOrThrow
  split
  next => exact sends.kept rfl rfl rfl id
  next isOpen =>
    simp only
    split
    next busy => exact ⟨sends.counted, fun _ => busy⟩
    next room =>
      have cloned : clones args.input = true := by
        rcases fine with closed | busy | cloned
        · exact absurd closed isOpen
        · exact absurd busy room
        · exact cloned
      simp only [sendInvokeOrThrow, cloned, if_true]
      constructor
      · simp only [sendInvoke, register, List.length_cons, sends.counted]
        omega
      · intro waiting
        exact absurd (sends.full waiting) room

/-- A throw in `invoke` leaves the counter one too high. -/
theorem invoke_breaks (sends : Sends w) {args : Invocation Payload} (bad : ¬ meets clones w (.invoke args)) :
    (invokeOrThrow clones w args).chan.activeSends ≠ (invokeOrThrow clones w args).wire.length := by
  simp only [meets, not_or, Bool.not_eq_true] at bad
  obtain ⟨isOpen, room, uncloned⟩ := bad
  have count := sends.counted
  simp only [invokeOrThrow, isOpen, room, Bool.false_eq_true, if_false, sendInvokeOrThrow, uncloned, register]
  omega

theorem erase_length {id : Nat} {wire : List Nat} (sent : id ∈ wire) : (wire.erase id).length + 1 = wire.length := by
  have := List.length_erase_of_mem sent
  have := List.length_pos_of_mem sent
  omega

/-- The drain sends the next request once the one that was answered is off the wire. -/
theorem drain_sends (sends : Sends w) {message : Reply Payload} (sent : message.id ∈ w.wire)
    (fine : meets clones w (.deliverReply message)) :
    (drainSendQueueOrThrow clones (sendAnswered w message.id)).2 = false ∧
      Sends (drainSendQueueOrThrow clones (sendAnswered w message.id)).1 := by
  have shorter := erase_length sent
  have count := sends.counted
  unfold drainSendQueueOrThrow
  cases waiting : w.chan.sendQueue with
  | nil =>
      simp only [sendAnswered, waiting]
      exact ⟨trivial, by simp only; omega, by simp⟩
  | cons head rest =>
      simp only [sendAnswered, waiting]
      split
      next busy => exact ⟨rfl, by simp only; omega, fun _ => busy⟩
      next room =>
        have cloned := (fine head rest waiting).resolve_left room
        simp only [sendInvokeOrThrow, cloned, if_true]
        refine ⟨trivial, ?_, ?_⟩
        · simp only [sendInvoke, List.length_cons]
          omega
        · intro _
          have before := sends.full (by simp [waiting])
          simpa [sendInvoke] using before

/-- A throw in the drain leaves the counter one too high. -/
theorem drain_breaks (sends : Sends w) {message : Reply Payload} (sent : message.id ∈ w.wire)
    (bad : ¬ meets clones w (.deliverReply message)) :
    (handleReplyOrThrow clones w message).chan.activeSends ≠ (handleReplyOrThrow clones w message).wire.length := by
  have shorter := erase_length sent
  have count := sends.counted
  simp only [meets, not_forall, not_or, Bool.not_eq_true] at bad
  obtain ⟨head, rest, waiting, room, uncloned⟩ := bad
  simp only [handleReplyOrThrow, drainSendQueueOrThrow, sendAnswered, waiting, room, Bool.false_eq_true, if_false,
    sendInvokeOrThrow, uncloned, if_true]
  omega

theorem settle_sends (sends : Sends w) (message : Reply Payload) : Sends (settleReply w message) := by
  unfold settleReply
  split
  · exact sends
  · exact sends.kept rfl rfl rfl id

theorem step_sends (sends : Sends w) {event : Event Payload} (comes : enabled w event) (fine : meets clones w event) :
    Sends (nextWorld clones w event) := by
  cases event with
  | invoke args => exact invoke_sends sends fine
  | reply token number err data platformMetering =>
      simp only [nextWorld, replyCallbackOrThrow]
      split
      · unfold replyCallback drainDispatchQueue
        split
        · exact sends.kept rfl rfl rfl id
        · split <;> exact sends.kept rfl rfl rfl id
      · exact sends.kept rfl rfl rfl id
  | invalidate =>
      simp only [nextWorld, invalidate]
      split
      · exact sends
      · exact sends.kept rfl rfl rfl id
  | returned => exact sends.kept rfl rfl rfl id
  | closing =>
      simp only [nextWorld]
      split
      · unfold closeNext failPending
        split
        · split <;> exact sends.kept rfl rfl rfl id
        · exact sends.kept rfl rfl rfl (by simp)
      · exact sends
  | deliverInvoke message =>
      simp only [nextWorld, handleInvoke]
      split
      · exact sends.kept rfl rfl rfl id
      · split <;> exact sends.kept rfl rfl rfl id
  | deliverReply message =>
      obtain ⟨-, -, sent⟩ := comes
      obtain ⟨calm, drained⟩ := drain_sends sends sent fine
      simp only [nextWorld, handleReplyOrThrow, calm, Bool.false_eq_true, if_false]
      exact settle_sends drained message
  | expire number call =>
      refine sends.kept rfl rfl rfl fun waiting => ?_
      rintro empty
      simp [nextWorld, expire, answer, empty] at waiting

end Sends

/-! Dispatches. -/
section Dispatches

variable {clones : Payload → Bool} {w : World Payload}

structure Dispatches (w : World Payload) : Prop where
  counted : w.chan.activeDispatches = w.running.length
  full : w.chan.dispatchQueue ≠ [] → atCap w.chan.maxConcurrentInvokes w.chan.activeDispatches = true
  bounded : ∀ cap, w.chan.maxConcurrentInvokes = some cap → w.running.length ≤ cap

theorem Dispatches.kept {after : World Payload} (dispatches : Dispatches w)
    (cap : after.chan.maxConcurrentInvokes = w.chan.maxConcurrentInvokes)
    (active : after.chan.activeDispatches = w.chan.activeDispatches) (running : after.running = w.running)
    (queue : after.chan.dispatchQueue ≠ [] → w.chan.dispatchQueue ≠ []) : Dispatches after := by
  constructor
  · rw [active, running]
    exact dispatches.counted
  · intro waiting
    rw [cap, active]
    exact dispatches.full (queue waiting)
  · rw [cap, running]
    exact dispatches.bounded

/-- Below the cap there is room for one more. -/
theorem room_for_one {cap : Option Nat} {active : Int} {running : Nat} (counted : active = running)
    (room : ¬ atCap cap active = true) (limit : Nat) (capped : cap = some limit) : running + 1 ≤ limit := by
  subst capped
  rw [at_cap_iff] at room
  omega

theorem dispatch_dispatches (dispatches : Dispatches w)
    (room : ¬ atCap w.chan.maxConcurrentInvokes w.chan.activeDispatches = true) (message : Request Payload)
    (queue : w.chan.dispatchQueue = []) : Dispatches (dispatchInvoke w message) := by
  have count := dispatches.counted
  constructor
  · simp only [dispatchInvoke, List.length_cons]
    omega
  · intro waiting
    exact absurd queue waiting
  · intro limit capped
    exact room_for_one count room limit capped

theorem running_erased {entry : Nat × Nat} {running : List (Nat × Nat)} (there : entry ∈ running) :
    (running.erase entry).length + 1 = running.length := by
  have := List.length_erase_of_mem there
  have := List.length_pos_of_mem there
  omega

theorem reply_dispatches (dispatches : Dispatches w) {token id : Nat} (there : (token, id) ∈ w.running)
    {err : Option (String × Option String)} {data platformMetering : Option Payload}
    (fine : meets clones w (.reply token id err data platformMetering)) :
    Dispatches (replyCallbackOrThrow clones w token id err data platformMetering) := by
  have shorter := running_erased there
  have count := dispatches.counted
  have limits : ∀ cap, w.chan.maxConcurrentInvokes = some cap → (w.running.erase (token, id)).length ≤ cap := by
    intro cap capped
    have := dispatches.bounded cap capped
    omega
  unfold replyCallbackOrThrow
  split
  next =>
    unfold replyCallback drainDispatchQueue
    cases waiting : w.chan.dispatchQueue with
    | nil => exact ⟨by simp only; omega, by simp [waiting], limits⟩
    | cons head rest =>
        simp only
        split
        next busy => exact ⟨by simp only; omega, fun _ => busy, limits⟩
        next room =>
          refine ⟨?_, ?_, ?_⟩
          · simp only [dispatchInvoke, List.length_cons]
            omega
          · intro _
            have before := dispatches.full (by simp [waiting])
            simpa [dispatchInvoke] using before
          · intro limit capped
            have := dispatches.bounded limit capped
            simp only [dispatchInvoke, List.length_cons]
            omega
  next uncloned =>
    have empty := fine.resolve_left uncloned
    exact ⟨by simp only; omega, by simp [empty], limits⟩

/-- A throw in a reply leaves the queue behind it undrained. -/
theorem reply_breaks (dispatches : Dispatches w) {token id : Nat} (there : (token, id) ∈ w.running)
    {err : Option (String × Option String)} {data platformMetering : Option Payload}
    (bad : ¬ meets clones w (.reply token id err data platformMetering)) :
    (replyCallbackOrThrow clones w token id err data platformMetering).chan.dispatchQueue ≠ [] ∧
      ¬ atCap (replyCallbackOrThrow clones w token id err data platformMetering).chan.maxConcurrentInvokes
        (replyCallbackOrThrow clones w token id err data platformMetering).chan.activeDispatches = true := by
  have shorter := running_erased there
  have count := dispatches.counted
  simp only [meets, not_or, Bool.not_eq_true] at bad
  obtain ⟨uncloned, waiting⟩ := bad
  simp only [replyCallbackOrThrow, uncloned, Bool.false_eq_true, if_false]
  refine ⟨waiting, ?_⟩
  have busy := dispatches.full waiting
  cases capped : w.chan.maxConcurrentInvokes with
  | none => simp [capped, atCap] at busy
  | some cap =>
      rw [capped, at_cap_iff] at busy
      have := dispatches.bounded cap capped
      rw [at_cap_iff]
      omega

theorem step_dispatches (dispatches : Dispatches w) {event : Event Payload} (comes : enabled w event)
    (fine : meets clones w event) : Dispatches (nextWorld clones w event) := by
  cases event with
  | invoke args =>
      simp only [nextWorld, invokeOrThrow]
      split
      · exact dispatches.kept rfl rfl rfl id
      · split
        · exact dispatches.kept rfl rfl rfl id
        · unfold sendInvokeOrThrow
          split <;> exact dispatches.kept rfl rfl rfl id
  | reply token number err data platformMetering => exact reply_dispatches dispatches comes.2 fine
  | invalidate =>
      simp only [nextWorld, invalidate]
      split
      · exact dispatches
      · exact dispatches.kept rfl rfl rfl id
  | returned => exact dispatches.kept rfl rfl rfl id
  | closing =>
      simp only [nextWorld]
      split
      · unfold closeNext failPending
        split
        · split <;> exact dispatches.kept rfl rfl rfl id
        · exact dispatches.kept rfl rfl rfl (by simp)
      · exact dispatches
  | deliverInvoke message =>
      simp only [nextWorld, handleInvoke]
      split
      · exact dispatches.kept rfl rfl rfl id
      · split
        next busy => exact ⟨dispatches.counted, fun _ => busy, dispatches.bounded⟩
        next room =>
          apply dispatch_dispatches dispatches room
          by_contra waiting
          exact room (dispatches.full waiting)
  | deliverReply message =>
      have drained : Dispatches (drainSendQueueOrThrow clones (sendAnswered w message.id)).1 := by
        unfold drainSendQueueOrThrow
        split
        · exact dispatches.kept rfl rfl rfl id
        · split
          · exact dispatches.kept rfl rfl rfl id
          · unfold sendInvokeOrThrow
            split <;> exact dispatches.kept rfl rfl rfl id
      simp only [nextWorld, handleReplyOrThrow]
      split
      · exact drained
      · unfold settleReply
        split
        · exact drained
        · exact drained.kept rfl rfl rfl id
  | expire number call => exact dispatches.kept rfl rfl rfl id

end Dispatches

/-! Replies. -/
section Replies

variable {clones : Payload → Bool} {w : World Payload}

theorem drain_keeps (w : World Payload) :
    (drainSendQueueOrThrow clones w).1.answers = w.answers ∧
      (drainSendQueueOrThrow clones w).1.chan.pending = w.chan.pending := by
  unfold drainSendQueueOrThrow
  split
  · exact ⟨rfl, rfl⟩
  · split
    · exact ⟨rfl, rfl⟩
    · unfold sendInvokeOrThrow
      split <;> exact ⟨rfl, rfl⟩

theorem settle_answers (w : World Payload) (message : Reply Payload) :
    (∀ item ∈ w.answers, item ∈ (settleReply w message).answers) ∧
      ∀ call, waitingFor w message = some call → (call, replyAnswer message) ∈ (settleReply w message).answers := by
  unfold settleReply waitingFor
  split
  next missing =>
    exact ⟨fun _ => id, by simp [missing]⟩
  next entry found =>
    refine ⟨fun item member => List.mem_cons_of_mem _ member, fun call waiting => ?_⟩
    rw [found, Option.map_some, Option.some.injEq] at waiting
    subst waiting
    exact List.mem_cons_self

/-- No event takes an answer back. -/
theorem answers_grow (event : Event Payload) : ∀ item ∈ w.answers, item ∈ (nextWorld clones w event).answers := by
  intro item member
  cases event with
  | invoke args =>
      simp only [nextWorld, invokeOrThrow]
      split
      · exact List.mem_cons_of_mem _ member
      · split
        · exact member
        · unfold sendInvokeOrThrow
          split <;> exact member
  | reply token number err data platformMetering =>
      simp only [nextWorld, replyCallbackOrThrow]
      split
      · unfold replyCallback drainDispatchQueue
        split
        · exact member
        · split <;> exact member
      · exact member
  | invalidate =>
      simp only [nextWorld, invalidate]
      split <;> exact member
  | returned => exact member
  | closing =>
      simp only [nextWorld]
      split
      · unfold closeNext failPending
        split
        · split
          · exact member
          · exact List.mem_cons_of_mem _ member
        · exact member
      · exact member
  | deliverInvoke message =>
      simp only [nextWorld, handleInvoke]
      split
      · exact member
      · split <;> exact member
  | deliverReply message =>
      have kept : item ∈ (drainSendQueueOrThrow clones (sendAnswered w message.id)).1.answers := by
        rw [(drain_keeps _).1]
        exact member
      simp only [nextWorld, handleReplyOrThrow]
      split
      · exact kept
      · exact (settle_answers _ message).1 item kept
  | expire number call => exact List.mem_cons_of_mem _ member

/-- Once the drain has not thrown, the reply's callback is called with it. -/
theorem reply_reaches (sends : Sends w) {message : Reply Payload} (sent : message.id ∈ w.wire)
    (fine : meets clones w (.deliverReply message)) {call : Nat} (waiting : waitingFor w message = some call) :
    (call, replyAnswer message) ∈ (nextWorld clones w (.deliverReply message)).answers := by
  obtain ⟨calm, -⟩ := drain_sends sends sent fine
  simp only [nextWorld, handleReplyOrThrow, calm, Bool.false_eq_true, if_false]
  apply (settle_answers _ message).2 call
  simp only [waitingFor] at waiting ⊢
  rw [(drain_keeps _).2]
  exact waiting

end Replies

/-! Runs. -/
section Runs

variable {clones : Payload → Bool} {cap : Option Nat} {onInvoke onClose : Bool} {t : Traced Payload}

/-- The states of runs whose events all meet a condition. -/
inductive Reached (clones : Payload → Bool) (cap : Option Nat) (onInvoke onClose : Bool)
    (condition : World Payload → Event Payload → Prop) : Traced Payload → Prop where
  | start : Reached clones cap onInvoke onClose condition (start cap onInvoke onClose)
  | next {t : Traced Payload} {event : Event Payload} (before : Reached clones cap onInvoke onClose condition t)
      (comes : enabled t.world event) (fine : condition t.world event) :
      Reached clones cap onInvoke onClose condition (next clones t event)

structure Invariant (t : Traced Payload) : Prop where
  sends : Sends t.world
  dispatches : Dispatches t.world
  reached : ∀ item ∈ t.due, (item.1, replyAnswer item.2) ∈ t.world.answers

theorem Invariant.sound (invariant : Invariant t) : Sound t :=
  ⟨invariant.reached, invariant.sends.counted, invariant.dispatches.counted, invariant.sends.full,
    invariant.dispatches.full⟩

theorem next_invariant (invariant : Invariant t) {event : Event Payload} (comes : enabled t.world event)
    (fine : meets clones t.world event) : Invariant (next clones t event) := by
  refine ⟨step_sends invariant.sends comes fine, step_dispatches invariant.dispatches comes fine, ?_⟩
  have old : ∀ item ∈ t.due, (item.1, replyAnswer item.2) ∈ (next clones t event).world.answers :=
    fun item member => answers_grow event _ (invariant.reached item member)
  cases event with
  | deliverReply message =>
      simp only [next]
      split
      next call waiting =>
        intro item member
        rcases List.mem_cons.mp member with new | there
        · subst new
          exact reply_reaches invariant.sends comes.2.2 fine waiting
        · exact old item there
      next => exact old
  | _ => exact old

theorem start_invariant : Invariant (start cap onInvoke onClose : Traced Payload) := by
  refine ⟨⟨rfl, ?_⟩, ⟨rfl, ?_, ?_⟩, ?_⟩ <;> simp [start, opened]

theorem reached_invariant (reached : Reached clones cap onInvoke onClose (meets clones) t) : Invariant t := by
  induction reached with
  | start => exact start_invariant
  | next before comes fine ih => exact next_invariant ih comes fine

/-- A payload that cannot be cloned hurts only its own call as long as it is not sent into the middle of something, and
at no other event. -/
theorem uncloneable_payload_hurts_its_call {Payload : Type} {clones : Payload → Bool} {cap : Option Nat}
    {onInvoke onClose : Bool} {t : Traced Payload}
    (reached : Reached clones cap onInvoke onClose (meets clones) t) :
    Sound t ∧ ∀ event, enabled t.world event → (Sound (next clones t event) ↔ meets clones t.world event) := by
  have invariant := reached_invariant reached
  refine ⟨invariant.sound, fun event comes => ⟨fun sound => ?_, fun fine => (next_invariant invariant comes fine).sound⟩⟩
  by_contra bad
  -- each of the three throws shows at once, in a counter or in a queue
  cases event with
  | invoke args => exact invoke_breaks invariant.sends bad sound.sends
  | reply token number err data platformMetering =>
      obtain ⟨waiting, room⟩ := reply_breaks invariant.dispatches comes.2 bad
      exact room (sound.dispatchesFull waiting)
  | deliverReply message => exact drain_breaks invariant.sends comes.2.2 bad sound.sends
  | _ => exact bad trivial

/-- A call whose input can or cannot be cloned. -/
def callWith (input : Bool) : Invocation Bool := ⟨"echo", "svc", "read", input, none⟩

/-- With a cap of one, a call is out and one that cannot be cloned is queued behind it. -/
def queuedBehind : Traced Bool :=
  next id (next id (start (some 1) true false) (.invoke (callWith true))) (.invoke (callWith false))

theorem queued_behind_is_sound :
    Reached id (some 1) true false (meets id) queuedBehind ∧ Sound queuedBehind := by
  have reached : Reached id (some 1) true false (meets id) queuedBehind :=
    .next (.next .start (Or.inl rfl) (Or.inr (Or.inr rfl))) (Or.inl rfl) (Or.inr (Or.inl rfl))
  exact ⟨reached, (uncloneable_payload_hurts_its_call reached).1⟩

/-- The reply of the first call drains the second, which throws: the callback of the first is not called. -/
theorem queued_payload_loses_a_reply :
    ¬ ∀ t : Traced Bool, Reached id (some 1) true false (fun _ _ => True) t → Sound t := by
  intro sound
  let reply : Reply Bool := ⟨0, none, none, some true, none⟩
  have reached : Reached id (some 1) true false (fun _ _ => True) (next id queuedBehind (.deliverReply reply)) :=
    .next (.next (.next .start (Or.inl rfl) trivial) (Or.inl rfl) trivial) ⟨rfl, rfl, List.mem_cons_self⟩ trivial
  have lost := (sound _ reached).reached (0, reply) List.mem_cons_self
  exact absurd lost List.not_mem_nil

end Runs

end Countinghouse.PeerClones
