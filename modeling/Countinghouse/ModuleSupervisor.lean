import Mathlib
import Countinghouse.PlainObject

/-!
lib/module-supervisor.js: what happens to a module after its worker has ended unexpectedly.
A record is an object that `records` has under the module's name; timers and restarts hold on
to the object, so records are kept by number here, also those that have been cleared.

A timer may fire at any time from when it is due, or never. `restarts` and `decisions` are
history: the calls of the restart callback, and the exits that were answered with a restart.
-/

namespace Countinghouse.ModuleSupervisor

open PlainObject

def BACKOFF_BASE_MS : Nat := 1000
def BACKOFF_MAX_MS : Nat := 60000
def SUSPEND_AFTER : Nat := 3
def WINDOW_MS : Nat := 10 * 60 * 1000

def backoffFor (nthExit : Nat) : Nat := min (BACKOFF_BASE_MS * 2 ^ (nthExit - 1)) BACKOFF_MAX_MS

/-! Records and timers. -/
section States

/-- A name that `records[name] = …` makes an own property of. -/
structure ModuleName where
  text : String
  proper : text ≠ "__proto__"

inductive Phase where
  | running
  | restarting
  | suspended
  deriving DecidableEq

structure Exit where
  time : Nat
  reason : String
  deriving DecidableEq

/-- `Spec` is an object. -/
structure Record (Spec : Type) where
  state : Phase
  modulePath : Option String
  version : Option String
  exits : List Exit
  lastReason : Option String
  nextRestartAt : Option Nat
  timer : Option Nat
  specs : Table Spec

/-- The function that setTimer was given is `record`'s, under `name`. -/
structure Timer where
  id : Nat
  name : String
  record : Nat
  due : Nat
  deriving DecidableEq

structure Restart where
  name : String
  record : Nat
  time : Nat
  deriving DecidableEq

structure Decision where
  record : Nat
  time : Nat
  deriving DecidableEq

structure State (Spec : Type) where
  records : Table Nat
  heap : Nat → Record Spec
  created : Nat
  timers : List Timer
  armed : Nat
  restarts : List Restart
  decisions : List Decision

variable {Spec : Type}

def newRecord : Record Spec := ⟨.running, none, none, [], none, none, none, []⟩

def start : State Spec := ⟨[], fun _ => newRecord, 0, [], 0, [], []⟩

def State.put (s : State Spec) (record : Nat) (value : Record Spec) : State Spec :=
  { s with heap := Function.update s.heap record value }

def State.clearTimer (s : State Spec) (timer : Option Nat) : State Spec :=
  { s with timers := s.timers.filter fun armed => some armed.id ≠ timer }

end States

/-! The methods. -/
section Methods

variable {Spec : Type}

/-- Nothing when `records[name]` is a method of `Object.prototype`: what `track` and `suspend` write goes to the method
then, and `exited` throws. -/
def recordFor (s : State Spec) (name : String) : Option (Nat × State Spec) :=
  match get s.records name with
  | .own record => some (record, s)
  | .inherited => none
  | .undefined =>
      some (s.created,
        { s with
          records := setKey s.records name s.created
          heap := Function.update s.heap s.created newRecord
          created := s.created + 1 })

def track (s : State Spec) (name : String) (modulePath version : Option String) : State Spec :=
  match recordFor s name with
  | none => s
  | some (record, s) =>
      s.put record
        { s.heap record with modulePath, version, state := .running, nextRestartAt := none, specs := [] }

/-- The exits of the last ten minutes, and this one. -/
def exitsWith (r : Record Spec) (now : Nat) (reason : String) : List Exit :=
  (r.exits.filter fun e => now ≤ e.time + WINDOW_MS) ++ [⟨now, reason⟩]

def exited (s : State Spec) (now : Nat) (name reason : String) (deviceSpecs : Table Spec) : State Spec :=
  match recordFor s name with
  | none => s
  | some (record, s) =>
      let r := s.heap record
      let exits := exitsWith r now reason
      let s := s.clearTimer r.timer
      let r := { r with exits, lastReason := some reason, specs := deviceSpecs, timer := none }
      if SUSPEND_AFTER ≤ exits.length then s.put record { r with state := .suspended, nextRestartAt := none }
      else
        let due := now + backoffFor exits.length
        { s.put record { r with state := .restarting, nextRestartAt := some due, timer := some s.armed } with
          timers := s.timers ++ [⟨s.armed, name, record, due⟩]
          armed := s.armed + 1
          decisions := s.decisions ++ [⟨record, now⟩] }

def clear (s : State Spec) (name : String) : State Spec :=
  match get s.records name with
  | .own record => { s.clearTimer (s.heap record).timer with records := deleteKey s.records name }
  | .inherited | .undefined => s

def isCurrent (s : State Spec) (name : String) (record : Nat) : Bool := s.records.lookup name = some record

def suspend (s : State Spec) (name reason : String) : State Spec :=
  match get s.records name with
  | .own record =>
      (s.clearTimer (s.heap record).timer).put record
        { s.heap record with state := .suspended, lastReason := some reason, nextRestartAt := none, timer := none }
  | .inherited | .undefined => s

/-- The function of a timer. -/
def fired (s : State Spec) (now : Nat) (timer : Timer) : State Spec :=
  let s := { s with timers := s.timers.filter fun armed => armed.id ≠ timer.id }
  let s := s.put timer.record { s.heap timer.record with timer := none }
  if (s.heap timer.record).state = .restarting then
    { s with restarts := s.restarts ++ [⟨timer.name, timer.record, now⟩] }
  else s

structure DeviceError where
  code : String
  name : String
  reason : Option String
  retryAt : Option Nat

def errorOf (s : State Spec) (deviceID : String) (entry : String × Nat) : Option DeviceError :=
  let r := s.heap entry.2
  match get r.specs deviceID with
  | .undefined => none
  | .own _ | .inherited =>
      match r.state with
      | .running => none
      | .restarting => some ⟨"MODULE_RESTARTING", entry.1, r.lastReason, r.nextRestartAt⟩
      | .suspended => some ⟨"MODULE_SUSPENDED", entry.1, r.lastReason, r.nextRestartAt⟩

def errorForDevice (s : State Spec) (deviceID : String) : Option DeviceError :=
  (enumerated s.records).findSome? (errorOf s deviceID)

def retainedSpecs (s : State Spec) : Table Spec :=
  (enumerated s.records).foldl (fun out entry =>
    if (s.heap entry.2).state = .running then out else assignAll out (s.heap entry.2).specs) []

inductive Event (Spec : Type) where
  | track (name : ModuleName) (modulePath version : Option String)
  | exited (name : ModuleName) (reason : String) (deviceSpecs : Table Spec)
  | suspend (name : ModuleName) (reason : String)
  | clear (name : ModuleName)
  | isCurrent (name : ModuleName) (record : Nat)
  /-- A timer fires; nothing happens unless it is armed and due. -/
  | timer (id : Nat)

def step (s : State Spec) (now : Nat) : Event Spec → State Spec
  | .track name modulePath version => track s name.text modulePath version
  | .exited name reason deviceSpecs => exited s now name.text reason deviceSpecs
  | .suspend name reason => suspend s name.text reason
  | .clear name => clear s name.text
  | .isCurrent _ _ => s
  | .timer id =>
      match s.timers.find? fun timer => timer.id = id ∧ timer.due ≤ now with
      | none => s
      | some timer => fired s now timer

/-- Events with their times. -/
def run : List (Nat × Event Spec) → State Spec → State Spec
  | [], s => s
  | (now, event) :: rest, s => run rest (step s now event)

def Ordered (events : List (Nat × Event Spec)) : Prop := (events.map Prod.fst).Pairwise (· ≤ ·)

end Methods

/-! Timers belong to the records that are registered. -/
section Timers

variable {Spec : Type}

/-- What is true of an armed timer. -/
structure Armed (s : State Spec) (timer : Timer) : Prop where
  known : timer.id < s.armed
  held : (s.heap timer.record).timer = some timer.id
  registered : s.records.lookup timer.name = some timer.record
  due : (s.heap timer.record).state = .restarting → (s.heap timer.record).nextRestartAt = some timer.due

structure Inv (s : State Spec) : Prop where
  armed : ∀ timer ∈ s.timers, Armed s timer
  ids : (s.timers.map Timer.id).Nodup
  known : ∀ name record, s.records.lookup name = some record → record < s.created
  single : ∀ name other record, s.records.lookup name = some record → s.records.lookup other = some record → other = name

theorem start_inv : Inv (start : State Spec) where
  armed := by simp [start]
  ids := by simp [start]
  known := by simp [start]
  single := by simp [start]

/-- recordFor gives the record that is then registered under the name. -/
theorem record_for_inv {s made : State Spec} {name : String} {record : Nat} (inv : Inv s)
    (found : recordFor s name = some (record, made)) : Inv made ∧ made.records.lookup name = some record := by
  unfold recordFor at found
  split at found
  · rename_i own
    cases found
    exact ⟨inv, own_lookup own⟩
  · cases found
  · rename_i missing
    cases found
    have absent := undefined_lookup missing
    refine ⟨⟨?_, inv.ids, ?_, ?_⟩, by simp [lookup_setKey]⟩
    · intro timer member
      obtain ⟨known, held, registered, due⟩ := inv.armed timer member
      have older : timer.record ≠ s.created := Nat.ne_of_lt (inv.known timer.name timer.record registered)
      have named : timer.name ≠ name := fun same => by simp [same, absent] at registered
      exact ⟨known, by simpa [older] using held, by simpa [lookup_setKey, named] using registered,
        by simpa [older] using due⟩
    · intro other record registered
      simp only [lookup_setKey] at registered
      split at registered
      · cases registered
        exact Nat.lt_succ_self _
      · exact Nat.lt_succ_of_lt (inv.known other record registered)
    · intro first second record isFirst isSecond
      simp only [lookup_setKey] at isFirst isSecond
      split at isFirst <;> split at isSecond
      · rename_i same also
        rw [same, also]
      · cases isFirst
        exact absurd (inv.known second _ isSecond) (Nat.lt_irrefl _)
      · cases isSecond
        exact absurd (inv.known first _ isFirst) (Nat.lt_irrefl _)
      · exact inv.single first second record isFirst isSecond

theorem clear_timer_inv {s : State Spec} (inv : Inv s) (timer : Option Nat) : Inv (s.clearTimer timer) where
  armed other member :=
    have inner := inv.armed other (List.mem_filter.mp member).1
    ⟨inner.known, inner.held, inner.registered, inner.due⟩
  ids := inv.ids.sublist (List.filter_sublist.map _)
  known := inv.known
  single := inv.single

/-- Every timer of a record is the one that the record holds. -/
theorem cleared {s : State Spec} (inv : Inv s) (record : Nat) :
    ∀ timer ∈ (s.clearTimer (s.heap record).timer).timers, timer.record ≠ record := by
  intro timer member same
  obtain ⟨member, kept⟩ := List.mem_filter.mp member
  have held := (inv.armed timer member).held
  rw [same] at held
  simp [held] at kept

theorem put_inv {s : State Spec} (inv : Inv s) (record : Nat) (value : Record Spec)
    (idle : ∀ timer ∈ s.timers, timer.record ≠ record) : Inv (s.put record value) where
  armed timer member :=
    have inner := inv.armed timer member
    have other := idle timer member
    ⟨inner.known, by simpa [State.put, other] using inner.held, inner.registered,
      by simpa [State.put, other] using inner.due⟩
  ids := inv.ids
  known := inv.known
  single := inv.single

theorem track_inv {s : State Spec} (inv : Inv s) (name : String) (modulePath version : Option String) :
    Inv (track s name modulePath version) := by
  unfold track
  split
  · exact inv
  · rename_i record made found
    obtain ⟨inv, -⟩ := record_for_inv inv found
    refine ⟨?_, inv.ids, inv.known, inv.single⟩
    -- a timer of the record stays armed, but does not restart it
    intro timer member
    obtain ⟨known, held, registered, due⟩ := inv.armed timer member
    by_cases same : timer.record = record
    · exact ⟨known, by simpa [State.put, same] using held, registered, by simp [State.put, same]⟩
    · exact ⟨known, by simpa [State.put, same] using held, registered, by simpa [State.put, same] using due⟩

theorem exited_inv {s : State Spec} (inv : Inv s) (now : Nat) (name reason : String) (deviceSpecs : Table Spec) :
    Inv (exited s now name reason deviceSpecs) := by
  unfold exited
  split
  · exact inv
  · rename_i record made found
    obtain ⟨inv, registered⟩ := record_for_inv inv found
    have idle := cleared inv record
    have calm := clear_timer_inv inv (made.heap record).timer
    dsimp only
    split
    · exact put_inv calm record _ idle
    · refine ⟨?_, ?_, inv.known, inv.single⟩
      · intro timer member
        rcases List.mem_append.mp member with old | new
        · obtain ⟨known, held, registered, due⟩ := calm.armed timer old
          have other := idle timer old
          exact ⟨Nat.lt_succ_of_lt known, by simpa [State.put, other] using held, registered,
            by simpa [State.put, other] using due⟩
        · rw [List.mem_singleton.mp new]
          exact ⟨Nat.lt_succ_self _, by simp [State.put], registered, by simp [State.put]⟩
      · simp only [List.map_append, List.map_cons, List.map_nil, List.nodup_append, calm.ids, List.nodup_singleton,
          true_and, List.mem_map, List.mem_singleton, forall_exists_index, and_imp]
        rintro _ timer member rfl _ rfl same
        exact absurd (calm.armed timer member).known (by simp [same])

theorem clear_inv {s : State Spec} (inv : Inv s) (name : String) : Inv (clear s name) := by
  unfold clear
  split
  · rename_i record own
    have idle := cleared inv record
    have calm := clear_timer_inv inv (s.heap record).timer
    refine ⟨?_, calm.ids, ?_, ?_⟩
    · intro timer member
      obtain ⟨known, held, registered, due⟩ := calm.armed timer member
      have named : timer.name ≠ name := by
        intro same
        have := (same ▸ registered : s.records.lookup name = some timer.record)
        rw [own_lookup own] at this
        exact idle timer member (Option.some.inj this).symm
      refine ⟨known, held, ?_, due⟩
      rw [lookup_deleteKey, if_neg named]
      exact registered
    · intro other record registered
      rw [lookup_deleteKey] at registered
      split at registered
      · cases registered
      · exact inv.known other record registered
    · intro first second record isFirst isSecond
      rw [lookup_deleteKey] at isFirst isSecond
      split at isFirst
      · cases isFirst
      · split at isSecond
        · cases isSecond
        · exact inv.single first second record isFirst isSecond
  · exact inv
  · exact inv

theorem suspend_inv {s : State Spec} (inv : Inv s) (name reason : String) : Inv (suspend s name reason) := by
  unfold suspend
  split
  · rename_i record _
    exact put_inv (clear_timer_inv inv _) record _ (cleared inv record)
  · exact inv
  · exact inv

theorem fired_inv {s : State Spec} (inv : Inv s) (now : Nat) {timer : Timer} (member : timer ∈ s.timers) :
    Inv (fired s now timer) := by
  have others : ({ s with timers := s.timers.filter fun armed => armed.id ≠ timer.id } : State Spec) =
      s.clearTimer (s.heap timer.record).timer := by
    simp [State.clearTimer, (inv.armed timer member).held]
  have after := put_inv (clear_timer_inv inv (s.heap timer.record).timer) timer.record
    { s.heap timer.record with timer := none } (cleared inv timer.record)
  unfold fired
  simp only [others]
  split
  · refine ⟨?_, after.ids, after.known, after.single⟩
    intro other isArmed
    obtain ⟨known, held, registered, due⟩ := after.armed other isArmed
    exact ⟨known, held, registered, due⟩
  · exact after

theorem step_inv {s : State Spec} (inv : Inv s) (now : Nat) (event : Event Spec) : Inv (step s now event) := by
  cases event with
  | track name modulePath version => exact track_inv inv name.text modulePath version
  | exited name reason deviceSpecs => exact exited_inv inv now name.text reason deviceSpecs
  | suspend name reason => exact suspend_inv inv name.text reason
  | clear name => exact clear_inv inv name.text
  | isCurrent name record => exact inv
  | timer id =>
      simp only [step]
      split
      · exact inv
      · rename_i timer found
        exact fired_inv inv now (List.mem_of_find?_eq_some found)

theorem run_inv (events : List (Nat × Event Spec)) {s : State Spec} (inv : Inv s) : Inv (run events s) := by
  induction events generalizing s with
  | nil => exact inv
  | cons event rest ih => exact ih (step_inv inv event.1 event.2)

/-- A record has one timer at most. -/
theorem one_timer {s : State Spec} (inv : Inv s) (record : Nat) :
    (s.timers.filter fun timer => timer.record = record).length ≤ 1 := by
  have nodup : ((s.timers.filter fun timer => timer.record = record).map Timer.id).Nodup :=
    inv.ids.sublist (List.filter_sublist.map _)
  have same : ∀ timer ∈ s.timers.filter fun timer => timer.record = record,
      (s.heap record).timer = some timer.id := by
    intro timer member
    obtain ⟨isArmed, isRecord⟩ := List.mem_filter.mp member
    have isRecord : timer.record = record := by simpa using isRecord
    exact isRecord ▸ (inv.armed timer isArmed).held
  cases all : s.timers.filter fun timer => timer.record = record with
  | nil => exact Nat.zero_le _
  | cons first rest =>
      cases rest with
      | nil => exact Nat.le_refl _
      | cons second rest =>
          rw [all] at nodup same
          have isFirst := same first List.mem_cons_self
          rw [same second (List.mem_cons_of_mem _ List.mem_cons_self)] at isFirst
          have equal : second.id = first.id := Option.some.inj isFirst
          simp [equal] at nodup

end Timers

/-! Restarts. -/
section Restarts

variable {Spec : Type}

theorem record_for_history {s made : State Spec} {name : String} {record : Nat}
    (found : recordFor s name = some (record, made)) :
    made.restarts = s.restarts ∧ made.decisions = s.decisions ∧ s.created ≤ made.created ∧
      ∀ old < s.created, made.heap old = s.heap old := by
  unfold recordFor at found
  split at found
  · cases found
    exact ⟨rfl, rfl, Nat.le_refl _, fun _ _ => rfl⟩
  · cases found
  · cases found
    exact ⟨rfl, rfl, Nat.le_succ _, fun old older => Function.update_of_ne (Nat.ne_of_lt older) _ _⟩

/-- The restart callback is called for a record that is registered, is restarting and is due. -/
def RestartsDue (s : State Spec) (now : Nat) (restart : Restart) : Prop :=
  isCurrent s restart.name restart.record = true ∧ (s.heap restart.record).state = .restarting ∧
    ∃ due, (s.heap restart.record).nextRestartAt = some due ∧ due ≤ now

theorem track_restarts (s : State Spec) (name : String) (modulePath version : Option String) :
    (track s name modulePath version).restarts = s.restarts := by
  unfold track
  split
  · rfl
  · rename_i found
    exact (record_for_history found).1

theorem exited_restarts (s : State Spec) (now : Nat) (name reason : String) (deviceSpecs : Table Spec) :
    (exited s now name reason deviceSpecs).restarts = s.restarts := by
  unfold exited
  split
  · rfl
  · rename_i found
    dsimp only
    split <;> exact (record_for_history found).1

theorem suspend_restarts (s : State Spec) (name reason : String) : (suspend s name reason).restarts = s.restarts := by
  unfold suspend
  split <;> rfl

theorem clear_restarts (s : State Spec) (name : String) : (clear s name).restarts = s.restarts := by
  unfold clear
  split <;> rfl

theorem step_restarts {s : State Spec} (inv : Inv s) (now : Nat) (event : Event Spec) :
    (step s now event).restarts = s.restarts ∨
      ∃ restart, (step s now event).restarts = s.restarts ++ [restart] ∧ RestartsDue s now restart := by
  cases event with
  | track name modulePath version => exact Or.inl (track_restarts s name.text modulePath version)
  | exited name reason deviceSpecs => exact Or.inl (exited_restarts s now name.text reason deviceSpecs)
  | suspend name reason => exact Or.inl (suspend_restarts s name.text reason)
  | clear name => exact Or.inl (clear_restarts s name.text)
  | isCurrent name record => exact Or.inl rfl
  | timer id =>
      simp only [step]
      split
      · exact Or.inl rfl
      · rename_i timer found
        have ready : timer.due ≤ now := by
          have := List.find?_some found
          simp only [decide_eq_true_eq] at this
          exact this.2
        obtain ⟨_, _, registered, due⟩ := inv.armed timer (List.mem_of_find?_eq_some found)
        unfold fired
        simp only [State.put, Function.update_self]
        split
        · rename_i restarting
          exact Or.inr ⟨_, rfl, by simpa [isCurrent] using registered, restarting, timer.due, due restarting, ready⟩
        · exact Or.inl rfl

end Restarts

/-! No more than two restarts within ten minutes. -/
section Windows

variable {Spec : Type}

def decidedIn (s : State Spec) (record first last : Nat) : Nat :=
  s.decisions.countP fun d => d.record = record ∧ first ≤ d.time ∧ d.time ≤ last

/-- The decisions that an exit at this time would count. -/
def decidedSince (s : State Spec) (record later : Nat) : Nat :=
  s.decisions.countP fun d => d.record = record ∧ later ≤ d.time + WINDOW_MS

def exitsSince (s : State Spec) (record later : Nat) : Nat :=
  (s.heap record).exits.countP fun e => later ≤ e.time + WINDOW_MS

structure Bounded (now : Nat) (s : State Spec) : Prop where
  made : ∀ d ∈ s.decisions, d.record < s.created
  past : ∀ d ∈ s.decisions, d.time ≤ now
  covered : ∀ record later, now ≤ later → decidedSince s record later ≤ exitsSince s record later
  bounded : ∀ record first, decidedIn s record first (first + WINDOW_MS) ≤ SUSPEND_AFTER - 1

theorem start_bounded (now : Nat) : Bounded now (start : State Spec) where
  made := by simp [start]
  past := by simp [start]
  covered := by simp [start, decidedSince]
  bounded := by simp [start, decidedIn]

/-- Without a decision, as long as the records keep their exits. -/
theorem bounded_keeps {s other : State Spec} {now later : Nat} (bounded : Bounded now s) (after : now ≤ later)
    (same : other.decisions = s.decisions) (created : s.created ≤ other.created)
    (exits : ∀ record < s.created, (other.heap record).exits = (s.heap record).exits) : Bounded later other where
  made d member := Nat.lt_of_lt_of_le (bounded.made d (same ▸ member)) created
  past d member := Nat.le_trans (bounded.past d (same ▸ member)) after
  covered record time isLater := by
    have old := bounded.covered record time (Nat.le_trans after isLater)
    by_cases known : record < s.created
    · simpa only [decidedSince, exitsSince, same, exits record known] using old
    · have none : decidedSince s record time = 0 := by
        simp only [decidedSince, List.countP_eq_zero, decide_eq_true_eq]
        rintro d member ⟨rfl, -⟩
        exact known (bounded.made d member)
      simp only [decidedSince, same] at none ⊢
      omega
  bounded record first := by simpa only [decidedIn, same] using bounded.bounded record first

theorem track_bounded {s : State Spec} {now later : Nat} (bounded : Bounded now s) (after : now ≤ later) (name : String)
    (modulePath version : Option String) : Bounded later (track s name modulePath version) := by
  unfold track
  split
  · exact bounded_keeps bounded after rfl (Nat.le_refl _) fun _ _ => rfl
  · rename_i record made found
    obtain ⟨_, same, created, kept⟩ := record_for_history found
    refine bounded_keeps bounded after same created ?_
    intro old older
    by_cases isRecord : old = record
    · subst isRecord
      simp [State.put, kept old older]
    · simp [State.put, isRecord, kept old older]

/-- What an exit forgets is outside of every window that is still to come. -/
theorem exits_with_since (r : Record Spec) (now : Nat) (reason : String) {later : Nat} (after : now ≤ later) :
    ((exitsWith r now reason).countP fun e => later ≤ e.time + WINDOW_MS) =
      (r.exits.countP fun e => later ≤ e.time + WINDOW_MS) + if later ≤ now + WINDOW_MS then 1 else 0 := by
  have kept : (r.exits.filter fun e => now ≤ e.time + WINDOW_MS).countP (fun e => later ≤ e.time + WINDOW_MS) =
      r.exits.countP fun e => later ≤ e.time + WINDOW_MS := by
    rw [List.countP_filter]
    apply List.countP_congr
    intro e _
    simp only [Bool.and_eq_true, decide_eq_true_eq, and_iff_left_iff_imp]
    exact Nat.le_trans after
  rw [exitsWith, List.countP_append, kept, List.countP_singleton]
  simp

/-- A restart is only decided when there are less than three exits to count, this one among them. -/
theorem decided_bounded {s : State Spec} {now : Nat} {record : Nat} (bounded : Bounded now s) (known : record < s.created)
    {other : State Spec} (same : other.decisions = s.decisions ++ [⟨record, now⟩]) (created : other.created = s.created)
    {reason : String} (exits : (other.heap record).exits = exitsWith (s.heap record) now reason)
    (others : ∀ old, old ≠ record → (other.heap old).exits = (s.heap old).exits)
    (few : (exitsWith (s.heap record) now reason).length < SUSPEND_AFTER) : Bounded now other := by
  have covered : ∀ old later, now ≤ later → decidedSince other old later ≤ exitsSince other old later := by
    intro old later after
    have before := bounded.covered old later after
    by_cases isRecord : old = record
    · subst isRecord
      simp only [exitsSince, exits, exits_with_since _ _ _ after, decidedSince, same, List.countP_append,
        List.countP_singleton, true_and, decide_eq_true_eq] at before ⊢
      omega
    · have notNew : ¬ record = old := fun equal => isRecord equal.symm
      simpa [decidedSince, exitsSince, same, others old isRecord, List.countP_append, List.countP_singleton, notNew]
        using before
  refine ⟨?_, ?_, covered, ?_⟩
  · intro d member
    rw [same] at member
    rw [created]
    rcases List.mem_append.mp member with old | new
    · exact bounded.made d old
    · exact List.mem_singleton.mp new ▸ known
  · intro d member
    rw [same] at member
    rcases List.mem_append.mp member with old | new
    · exact bounded.past d old
    · exact List.mem_singleton.mp new ▸ Nat.le_refl _
  · intro old first
    by_cases within : old = record ∧ first ≤ now ∧ now ≤ first + WINDOW_MS
    · obtain ⟨rfl, _, inside⟩ := within
      -- all decisions of the window are among the exits that were counted now
      have counted : decidedIn other old first (first + WINDOW_MS) ≤ decidedSince other old now := by
        apply List.countP_mono_left
        intro d _
        simp only [decide_eq_true_eq, and_imp]
        intro isRecord early _
        exact ⟨isRecord, by omega⟩
      have atMost : exitsSince other old now ≤ (exitsWith (s.heap old) now reason).length := by
        rw [exitsSince, exits]
        exact List.countP_le_length
      have := covered old now (Nat.le_refl _)
      simp only [SUSPEND_AFTER] at few ⊢
      omega
    · have notNew : ¬ (record = old ∧ first ≤ now ∧ now ≤ first + WINDOW_MS) :=
        fun inside => within ⟨inside.1.symm, inside.2⟩
      simpa [decidedIn, same, List.countP_append, List.countP_singleton, notNew] using bounded.bounded old first

theorem exited_bounded {s : State Spec} {now later : Nat} (inv : Inv s) (bounded : Bounded now s) (after : now ≤ later)
    (name reason : String) (deviceSpecs : Table Spec) : Bounded later (exited s later name reason deviceSpecs) := by
  unfold exited
  split
  · exact bounded_keeps bounded after rfl (Nat.le_refl _) fun _ _ => rfl
  · rename_i record made found
    obtain ⟨_, same, created, kept⟩ := record_for_history found
    obtain ⟨madeInv, registered⟩ := record_for_inv inv found
    have known := madeInv.known name record registered
    have bounded : Bounded later made := bounded_keeps bounded after same created fun old older => by rw [kept old older]
    dsimp only
    split
    · refine ⟨bounded.made, bounded.past, ?_, bounded.bounded⟩
      intro old time isLater
      have before := bounded.covered old time isLater
      by_cases isRecord : old = record
      · subst isRecord
        simp only [exitsSince, State.put, Function.update_self, exits_with_since _ _ _ isLater]
        exact Nat.le_trans before (Nat.le_add_right _ _)
      · simpa [exitsSince, decidedSince, State.put, State.clearTimer, isRecord] using before
    · rename_i few
      exact decided_bounded bounded known rfl rfl (by simp [State.put]) (fun old other => by
        simp [State.put, State.clearTimer, other]) (Nat.lt_of_not_le few)

theorem suspend_bounded {s : State Spec} {now later : Nat} (bounded : Bounded now s) (after : now ≤ later)
    (name reason : String) : Bounded later (suspend s name reason) := by
  unfold suspend
  split
  · rename_i record _
    refine bounded_keeps bounded after rfl (Nat.le_refl _) ?_
    intro old _
    by_cases isRecord : old = record
    · simp [State.put, isRecord]
    · simp [State.put, State.clearTimer, isRecord]
  · exact bounded_keeps bounded after rfl (Nat.le_refl _) fun _ _ => rfl
  · exact bounded_keeps bounded after rfl (Nat.le_refl _) fun _ _ => rfl

theorem clear_bounded {s : State Spec} {now later : Nat} (bounded : Bounded now s) (after : now ≤ later) (name : String) :
    Bounded later (clear s name) := by
  unfold clear
  split <;> exact bounded_keeps bounded after rfl (Nat.le_refl _) fun _ _ => rfl

theorem fired_bounded {s : State Spec} {now later : Nat} (bounded : Bounded now s) (after : now ≤ later) (timer : Timer) :
    Bounded later (fired s later timer) := by
  have exits : ∀ old < s.created, ((s.put timer.record { s.heap timer.record with timer := none }).heap old).exits =
      (s.heap old).exits := by
    intro old _
    by_cases isRecord : old = timer.record
    · simp [State.put, isRecord]
    · simp [State.put, isRecord]
  unfold fired
  dsimp only
  split <;> exact bounded_keeps bounded after rfl (Nat.le_refl _) exits

theorem step_bounded {s : State Spec} {now later : Nat} (inv : Inv s) (bounded : Bounded now s) (after : now ≤ later)
    (event : Event Spec) : Bounded later (step s later event) := by
  cases event with
  | track name modulePath version => exact track_bounded bounded after name.text modulePath version
  | exited name reason deviceSpecs => exact exited_bounded inv bounded after name.text reason deviceSpecs
  | suspend name reason => exact suspend_bounded bounded after name.text reason
  | clear name => exact clear_bounded bounded after name.text
  | isCurrent name record => exact bounded_keeps bounded after rfl (Nat.le_refl _) fun _ _ => rfl
  | timer id =>
      simp only [step]
      split
      · exact bounded_keeps bounded after rfl (Nat.le_refl _) fun _ _ => rfl
      · exact fired_bounded bounded after _

theorem run_bounded (events : List (Nat × Event Spec)) {s : State Spec} {now : Nat} (inv : Inv s)
    (bounded : Bounded now s) (ordered : Ordered events) (after : ∀ event ∈ events, now ≤ event.1) :
    ∃ last, Bounded last (run events s) := by
  induction events generalizing s now with
  | nil => exact ⟨now, bounded⟩
  | cons event rest ih =>
      obtain ⟨time, event⟩ := event
      obtain ⟨first, ordered⟩ := List.pairwise_cons.mp ordered
      have later : now ≤ time := after (time, event) List.mem_cons_self
      exact ih (step_inv inv time event) (step_bounded inv bounded later event) ordered fun other member =>
        first other.1 (List.mem_map_of_mem member)

end Windows

/-! A module that is suspended stays so until its name is tracked or cleared, or an exit is reported for it. -/
section Suspension

variable {Spec : Type}

/-- The events after which a suspended module may be started again. -/
def Renews (name : String) : Event Spec → Prop
  | .track other _ _ | .exited other _ _ | .clear other => other.text = name
  | .suspend .. | .isCurrent .. | .timer _ => False

structure Suspended (s : State Spec) (name : String) (record : Nat) : Prop where
  current : s.records.lookup name = some record
  state : (s.heap record).state = .suspended

/-- A module under another name has a record of its own. -/
theorem record_for_other {s made : State Spec} {name other : String} {record found : Nat} (inv : Inv s)
    (suspended : Suspended s name record) (isFound : recordFor s other = some (found, made)) (differs : other ≠ name) :
    record ≠ found ∧ Suspended made name record := by
  obtain ⟨_, _, _, kept⟩ := record_for_history isFound
  obtain ⟨madeInv, registered⟩ := record_for_inv inv isFound
  have known := inv.known name record suspended.current
  have current : made.records.lookup name = some record := by
    unfold recordFor at isFound
    split at isFound
    · cases isFound
      exact suspended.current
    · cases isFound
    · cases isFound
      simpa [lookup_setKey, differs.symm] using suspended.current
  constructor
  · rintro rfl
    exact differs (madeInv.single name other record current registered)
  · exact ⟨current, by rw [kept record known]; exact suspended.state⟩

theorem step_suspended {s : State Spec} {name : String} {record : Nat} (inv : Inv s) (suspended : Suspended s name record)
    (now : Nat) (event : Event Spec) (other : ¬ Renews name event) : Suspended (step s now event) name record := by
  cases event with
  | track named modulePath version =>
      simp only [step, track]
      split
      · exact suspended
      · rename_i found made isFound
        obtain ⟨differs, current, state⟩ := record_for_other inv suspended isFound other
        exact ⟨current, by simpa [State.put, differs] using state⟩
  | exited named reason deviceSpecs =>
      simp only [step, exited]
      split
      · exact suspended
      · rename_i found made isFound
        obtain ⟨differs, current, state⟩ := record_for_other inv suspended isFound other
        split
        · exact ⟨current, by simpa [State.put, State.clearTimer, differs] using state⟩
        · exact ⟨current, by simpa [State.put, State.clearTimer, differs] using state⟩
  | suspend named reason =>
      simp only [step, suspend]
      split
      · rename_i found own
        by_cases same : record = found
        · exact ⟨suspended.current, by simp [State.put, same]⟩
        · exact ⟨suspended.current, by simpa [State.put, State.clearTimer, same] using suspended.state⟩
      · exact suspended
      · exact suspended
  | clear named =>
      simp only [step, clear]
      split
      · refine ⟨?_, suspended.state⟩
        have differs : name ≠ named.text := fun same => other same.symm
        simpa [lookup_deleteKey, differs] using suspended.current
      · exact suspended
      · exact suspended
  | isCurrent named found => exact suspended
  | timer id =>
      simp only [step]
      split
      · exact suspended
      · rename_i timer _
        have kept : ∀ restarts, Suspended
            { s with
              timers := s.timers.filter fun armed => armed.id ≠ timer.id
              heap := Function.update s.heap timer.record { s.heap timer.record with timer := none }
              restarts := restarts } name record := by
          intro restarts
          refine ⟨suspended.current, ?_⟩
          by_cases same : record = timer.record
          · subst same
            simpa using suspended.state
          · simpa [same] using suspended.state
        unfold fired
        dsimp only
        split <;> exact kept _

theorem run_suspended (events : List (Nat × Event Spec)) {s : State Spec} {name : String} {record : Nat} (inv : Inv s)
    (suspended : Suspended s name record) (others : ∀ event ∈ events, ¬ Renews name event.2) :
    Suspended (run events s) name record ∧
      ((run events s).restarts.filter fun restart => restart.record = record) =
        s.restarts.filter fun restart => restart.record = record := by
  induction events generalizing s with
  | nil => exact ⟨suspended, rfl⟩
  | cons event rest ih =>
      have stays := step_suspended inv suspended event.1 event.2 (others event List.mem_cons_self)
      obtain ⟨later, same⟩ := ih (step_inv inv event.1 event.2) stays fun other member =>
        others other (List.mem_cons_of_mem _ member)
      refine ⟨later, same.trans ?_⟩
      -- a restart would be of a record that is restarting
      rcases step_restarts inv event.1 event.2 with none | ⟨restart, added, _, restarting, _⟩
      · rw [none]
      · have differs : restart.record ≠ record := by
          rintro rfl
          rw [suspended.state] at restarting
          cases restarting
        simp [added, differs]

end Suspension

/-! What is said about the devices of modules that are away. -/
section Devices

variable {Spec : Type}

def Away (s : State Spec) (deviceID : String) (entry : String × Nat) : Prop :=
  entry ∈ s.records ∧ (s.heap entry.2).state ≠ .running ∧ deviceID ∈ (s.heap entry.2).specs.map Prod.fst

theorem set_key_names (table : Table Spec) (key : String) (value : Spec) (name : String) :
    name ∈ (setKey table key value).map Prod.fst ↔ name ∈ table.map Prod.fst ∨ name = key := by
  unfold setKey
  split
  · rename_i there
    obtain ⟨entry, member, named⟩ := List.any_eq_true.mp there
    have isKey : key ∈ table.map Prod.fst := List.mem_map.mpr ⟨entry, member, by simpa using named⟩
    have same : (table.map fun entry => if entry.1 = key then (key, value) else entry).map Prod.fst =
        table.map Prod.fst := by
      simp only [List.map_map, List.map_inj_left, Function.comp_apply]
      intro entry _
      split
      · rename_i equal
        exact equal.symm
      · rfl
    rw [same]
    constructor
    · exact Or.inl
    · rintro (member | rfl)
      · exact member
      · exact isKey
  · simp

theorem assign_all_names (table other : Table Spec) (name : String) :
    name ∈ (assignAll table other).map Prod.fst ↔ name ∈ table.map Prod.fst ∨ name ∈ other.map Prod.fst := by
  unfold assignAll
  induction other generalizing table with
  | nil => simp
  | cons entry rest ih =>
      rw [List.foldl_cons, ih, set_key_names]
      simp only [List.map_cons, List.mem_cons]
      exact or_assoc

theorem retained_iff (s : State Spec) (deviceID : String) :
    deviceID ∈ (retainedSpecs s).map Prod.fst ↔ ∃ entry, Away s deviceID entry := by
  have each : ∀ (entries : Table Nat) (out : Table Spec),
      deviceID ∈ (entries.foldl (fun out entry =>
        if (s.heap entry.2).state = .running then out else assignAll out (s.heap entry.2).specs) out).map Prod.fst ↔
        deviceID ∈ out.map Prod.fst ∨ ∃ entry ∈ entries, (s.heap entry.2).state ≠ .running ∧
          deviceID ∈ (s.heap entry.2).specs.map Prod.fst := by
    intro entries
    induction entries with
    | nil => simp
    | cons entry rest ih =>
        intro out
        rw [List.foldl_cons, ih]
        by_cases isRunning : (s.heap entry.2).state = .running
        · simp [isRunning]
        · simp only [isRunning, ↓reduceIte, assign_all_names, List.mem_cons, exists_eq_or_imp, ne_eq, not_false_eq_true,
            true_and]
          exact or_assoc
  rw [retainedSpecs, each]
  simp [Away, mem_enumerated]

theorem error_of_iff (s : State Spec) {deviceID : String} (proper : deviceID ∉ inheritedNames) (entry : String × Nat) :
    (errorOf s deviceID entry).isSome ↔
      (s.heap entry.2).state ≠ .running ∧ deviceID ∈ (s.heap entry.2).specs.map Prod.fst := by
  unfold errorOf
  cases found : get (s.heap entry.2).specs deviceID with
  | own spec =>
      have listed : deviceID ∈ (s.heap entry.2).specs.map Prod.fst :=
        List.mem_map.mpr ⟨_, lookup_mem (own_lookup found), rfl⟩
      cases state : (s.heap entry.2).state <;> simp [found, state, listed]
  | inherited => exact absurd (inherited_mem found) proper
  | undefined =>
      have missing := List.lookup_eq_none_iff.mp (undefined_lookup found)
      have unlisted : deviceID ∉ (s.heap entry.2).specs.map Prod.fst := by
        intro member
        obtain ⟨spec, there, same⟩ := List.mem_map.mp member
        simpa [same] using missing spec there
      simp [found, unlisted]

/-- The error that is given is one of a module that has the device. -/
def Describes (s : State Spec) (deviceID : String) (err : DeviceError) : Prop :=
  ∃ entry, Away s deviceID entry ∧ errorOf s deviceID entry = some err

theorem error_for_device (s : State Spec) {deviceID : String} (proper : deviceID ∉ inheritedNames) :
    ((errorForDevice s deviceID).isSome ↔ ∃ entry, Away s deviceID entry) ∧
      ∀ err, errorForDevice s deviceID = some err → Describes s deviceID err := by
  constructor
  · rw [errorForDevice, List.findSome?_isSome_iff]
    constructor
    · rintro ⟨entry, member, isError⟩
      exact ⟨entry, mem_enumerated.mp member, (error_of_iff s proper entry).mp isError⟩
    · rintro ⟨entry, member, away⟩
      exact ⟨entry, mem_enumerated.mpr member, (error_of_iff s proper entry).mpr away⟩
  · intro err found
    obtain ⟨entry, member, isError⟩ := List.exists_of_findSome?_eq_some found
    exact ⟨entry, ⟨mem_enumerated.mp member, (error_of_iff s proper entry).mp (by simp [isError])⟩, isError⟩

end Devices

/-! The supervisor after any events. -/
section Supervisor

variable {Spec : Type}

theorem supervisor_safe (events : List (Nat × Event Spec)) (ordered : Ordered events) :
    (∀ record, ((run events start).timers.filter fun timer => timer.record = record).length ≤ 1) ∧
      (∀ now event, (step (run events start) now event).restarts = (run events start).restarts ∨
        ∃ restart, (step (run events start) now event).restarts = (run events start).restarts ++ [restart] ∧
          RestartsDue (run events start) now restart) ∧
      (∀ record first, decidedIn (run events start) record first (first + WINDOW_MS) ≤ SUSPEND_AFTER - 1) ∧
      (∀ name record, Suspended (run events start) name record → ∀ later : List (Nat × Event Spec),
        (∀ event ∈ later, ¬ Renews name event.2) → Suspended (run later (run events start)) name record ∧
          ((run later (run events start)).restarts.filter fun restart => restart.record = record) =
            (run events start).restarts.filter fun restart => restart.record = record) ∧
      (∀ deviceID, deviceID ∈ (retainedSpecs (run events start)).map Prod.fst ↔
        ∃ entry, Away (run events start) deviceID entry) ∧
      ∀ deviceID, deviceID ∉ inheritedNames →
        ((errorForDevice (run events start) deviceID).isSome ↔ ∃ entry, Away (run events start) deviceID entry) ∧
          ∀ err, errorForDevice (run events start) deviceID = some err →
            Describes (run events start) deviceID err := by
  have inv := run_inv events (@start_inv Spec)
  obtain ⟨last, bounded⟩ := run_bounded events start_inv (start_bounded 0) ordered fun event _ => Nat.zero_le _
  refine ⟨one_timer inv, step_restarts inv, bounded.bounded, ?_, retained_iff _, fun _ => error_for_device _⟩
  intro name record suspended later others
  exact run_suspended later inv suspended others

def camera : ModuleName := ⟨"camera", by decide⟩

/-- A module is suspended, its worker's exit is reported after that, and a second later its timer fires. -/
def suspendedThenExited : List (Nat × Event Unit) :=
  [(0, .exited camera "crashed" []), (10, .suspend camera "refused"), (20, .exited camera "crashed" []),
    (2020, .timer 1)]

theorem exit_restarts_suspended :
    ((run (suspendedThenExited.take 2) start).heap 0).state = .suspended ∧
      (run (suspendedThenExited.take 2) start).records.lookup "camera" = some 0 ∧
      (run suspendedThenExited start).restarts = [⟨"camera", 0, 2020⟩] := by
  decide

theorem camera_safe :
    ((run suspendedThenExited start).timers.filter fun timer => timer.record = 0).length ≤ 1 ∧
      decidedIn (run suspendedThenExited start) 0 20 (20 + WINDOW_MS) ≤ SUSPEND_AFTER - 1 := by
  have safe := supervisor_safe suspendedThenExited (by simp [Ordered, suspendedThenExited])
  exact ⟨safe.1 0, safe.2.2.1 0 20⟩

end Supervisor

end Countinghouse.ModuleSupervisor
