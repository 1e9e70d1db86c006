import Mathlib
import Countinghouse.PlainObject

/-!
lib/fs-broker/rwlock.js and lib/fs-broker/scheduler.js. Whoever asks for a lock or a slot is
known by a number. A claim says where a number stands with a lock or with the scheduler; what
the two count is what the claims say.
-/

namespace Countinghouse.BrokerQueues

open PlainObject

/-! Counting claims. -/
section Counting

variable {before after : Nat → Prop} [DecidablePred before] [DecidablePred after] {n bound : Nat}

theorem count_raised (within : n < bound) (new : after n) (old : ¬ before n)
    (same : ∀ m, m ≠ n → (after m ↔ before m)) : Nat.count after bound = Nat.count before bound + 1 := by
  rw [Nat.count_eq_card_filter_range, Nat.count_eq_card_filter_range]
  have split : (Finset.range bound).filter after = insert n ((Finset.range bound).filter before) := by
    ext m
    by_cases equal : m = n
    · subst equal
      simp [within, new]
    · simp [equal, same m equal]
  rw [split, Finset.card_insert_of_notMem (by simp [old])]

theorem count_same (same : ∀ m, after m ↔ before m) : Nat.count after bound = Nat.count before bound := by
  simp only [Nat.count_eq_card_filter_range, same]

theorem count_exists (some : 0 < Nat.count before bound) : ∃ m, before m := by
  rw [Nat.count_eq_card_filter_range, Finset.card_pos] at some
  obtain ⟨m, member⟩ := some
  exact ⟨m, (Finset.mem_filter.mp member).2⟩

end Counting

/-! The lock of a module. -/
section Locks

structure RwLock where
  readers : Nat
  writer : Bool
  queue : List (Nat × Bool)

def RwLock.fresh : RwLock := ⟨0, false, []⟩

/-- `pump`, and whom it gives the lock to. -/
def RwLock.pump (readers : Nat) (writer : Bool) : List (Nat × Bool) → RwLock × List (Nat × Bool)
  | [] => (⟨readers, writer, []⟩, [])
  | (n, exclusive) :: rest =>
      if writer || (exclusive && 0 < readers) then (⟨readers, writer, (n, exclusive) :: rest⟩, [])
      else if exclusive then (⟨readers, true, rest⟩, [(n, exclusive)])
      else
        let (lock, granted) := RwLock.pump (readers + 1) writer rest
        (lock, (n, exclusive) :: granted)

def RwLock.acquire (lock : RwLock) (n : Nat) (exclusive : Bool) : RwLock × List (Nat × Bool) :=
  RwLock.pump lock.readers lock.writer (lock.queue ++ [(n, exclusive)])

def RwLock.release (lock : RwLock) (exclusive : Bool) : RwLock × List (Nat × Bool) :=
  if exclusive then RwLock.pump lock.readers false lock.queue
  else RwLock.pump (lock.readers - 1) lock.writer lock.queue

inductive LockClaim where
  | off
  | waits (exclusive : Bool)
  | holds (exclusive : Bool)
  deriving DecidableEq

/-- The claims when these have been given the lock. -/
def grants (claims : Nat → LockClaim) (granted : List (Nat × Bool)) : Nat → LockClaim :=
  granted.foldl (fun claims entry => Function.update claims entry.1 (.holds entry.2)) claims

/-- Each of them waits for the lock when it is given to it. -/
def Granted (claims : Nat → LockClaim) : List (Nat × Bool) → Prop
  | [] => True
  | (n, exclusive) :: rest => claims n = .waits exclusive ∧ Granted (Function.update claims n (.holds exclusive)) rest

structure RwLock.Counts (lock : RwLock) (claims : Nat → LockClaim) (bound : Nat) : Prop where
  queued : ∀ n exclusive, (n, exclusive) ∈ lock.queue ↔ claims n = .waits exclusive
  apart : (lock.queue.map Prod.fst).Nodup
  readers : lock.readers = Nat.count (fun n => claims n = .holds false) bound
  writer : lock.writer.toNat = Nat.count (fun n => claims n = .holds true) bound
  bounded : ∀ n, claims n ≠ .off → n < bound

/-- Nobody waits for a lock that is free. -/
structure RwLock.Agrees (lock : RwLock) (claims : Nat → LockClaim) (bound : Nat) : Prop
    extends lock.Counts claims bound where
  rests : lock.queue ≠ [] → lock.writer = true ∨ 0 < lock.readers

theorem fresh_agrees : RwLock.fresh.Agrees (fun _ => .off) 0 where
  queued := by simp [RwLock.fresh]
  apart := List.nodup_nil
  readers := rfl
  writer := rfl
  bounded := by simp
  rests := by simp [RwLock.fresh]

variable {lock : RwLock} {claims : Nat → LockClaim} {bound : Nat}

/-- The head of the queue gets the lock. -/
theorem granted_counts {readers : Nat} {writer exclusive : Bool} {n : Nat} {rest : List (Nat × Bool)}
    (counts : (⟨readers, writer, (n, exclusive) :: rest⟩ : RwLock).Counts claims bound) (free : writer = false) :
    (⟨if exclusive then readers else readers + 1, exclusive, rest⟩ : RwLock).Counts
      (Function.update claims n (.holds exclusive)) bound := by
  have waits : claims n = .waits exclusive := (counts.queued n exclusive).mp (List.mem_cons_self ..)
  have within : n < bound := counts.bounded n (by simp [waits])
  have apart := List.nodup_cons.mp counts.apart
  have none : ∀ m, m ≠ n → Function.update claims n (.holds exclusive) m = claims m := by
    intro m differs
    simp [differs]
  constructor
  · intro m flag
    by_cases same : m = n
    · subst same
      have gone : (m, flag) ∉ rest := fun member => apart.1 (List.mem_map.mpr ⟨_, member, rfl⟩)
      simp [gone]
    · rw [none m same, ← counts.queued]
      simp [same]
  · exact apart.2
  · have readers := counts.readers
    simp only at readers ⊢
    cases exclusive with
    | false =>
        rw [if_neg (by simp), readers]
        exact (count_raised within (by simp) (by simp [waits]) (fun m differs => by rw [none m differs])).symm
    | true =>
        rw [if_pos rfl, readers]
        apply count_same
        intro m
        by_cases same : m = n
        · subst same
          simp [waits]
        · rw [none m same]
  · have writer := counts.writer
    simp only [free, Bool.toNat_false] at writer ⊢
    cases exclusive with
    | false =>
        rw [Bool.toNat_false, writer]
        apply count_same
        intro m
        by_cases same : m = n
        · subst same
          simp [waits]
        · rw [none m same]
    | true =>
        rw [Bool.toNat_true]
        have raised : Nat.count (fun m => Function.update claims n (.holds true) m = .holds true) bound =
            Nat.count (fun m => claims m = .holds true) bound + 1 :=
          count_raised within (by simp) (by simp [waits]) (fun m differs => by rw [none m differs])
        omega
  · intro m claimed
    by_cases same : m = n
    · exact same ▸ within
    · rw [none m same] at claimed
      exact counts.bounded m claimed

theorem pump_agrees {readers : Nat} {writer : Bool} {queue : List (Nat × Bool)}
    (counts : (⟨readers, writer, queue⟩ : RwLock).Counts claims bound) :
    (RwLock.pump readers writer queue).1.Agrees (grants claims (RwLock.pump readers writer queue).2) bound ∧
      Granted claims (RwLock.pump readers writer queue).2 := by
  induction queue generalizing readers writer claims with
  | nil => exact ⟨{ counts with rests := by simp [RwLock.pump] }, trivial⟩
  | cons head rest ih =>
      obtain ⟨n, exclusive⟩ := head
      unfold RwLock.pump
      by_cases taken : writer || (exclusive && 0 < readers)
      · rw [if_pos taken]
        refine ⟨{ counts with rests := fun _ => ?_ }, trivial⟩
        simp only [Bool.or_eq_true, Bool.and_eq_true, decide_eq_true_eq] at taken
        exact taken.imp id And.right
      · rw [if_neg taken]
        simp only [Bool.or_eq_true, not_or, Bool.not_eq_true] at taken
        have next := granted_counts counts taken.1
        have waits := (counts.queued n exclusive).mp (List.mem_cons_self ..)
        cases exclusive with
        | true => exact ⟨{ next with rests := fun _ => Or.inl rfl }, waits, trivial⟩
        | false =>
            simp only [Bool.false_eq_true, if_false, taken.1] at next ⊢
            exact ⟨(ih next).1, waits, (ih next).2⟩

theorem acquire_agrees (agrees : lock.Agrees claims bound) {n : Nat} (within : n < bound) (off : claims n = .off)
    (exclusive : Bool) :
    (lock.acquire n exclusive).1.Agrees
      (grants (Function.update claims n (.waits exclusive)) (lock.acquire n exclusive).2) bound ∧
      Granted (Function.update claims n (.waits exclusive)) (lock.acquire n exclusive).2 := by
  apply pump_agrees
  have absent : n ∉ lock.queue.map Prod.fst := by
    intro member
    obtain ⟨⟨m, flag⟩, there, rfl⟩ := List.mem_map.mp member
    cases off.symm.trans ((agrees.queued m flag).mp there)
  constructor
  · intro m flag
    rw [List.mem_append, List.mem_singleton, agrees.queued]
    by_cases same : m = n
    · subst same
      simp [off, eq_comm]
    · simp [same]
  · rw [List.map_append, List.nodup_append]
    refine ⟨agrees.apart, List.nodup_singleton _, ?_⟩
    rintro m member other isNew rfl
    obtain rfl := List.mem_singleton.mp isNew
    exact absent member
  · rw [agrees.readers]
    exact (count_same fun m => by by_cases same : m = n <;> simp_all).symm
  · rw [agrees.writer]
    exact (count_same fun m => by by_cases same : m = n <;> simp_all).symm
  · intro m claimed
    by_cases same : m = n
    · exact same ▸ within
    · exact agrees.bounded m (by simpa [same] using claimed)

theorem release_agrees (agrees : lock.Agrees claims bound) {n : Nat} {exclusive : Bool}
    (holds : claims n = .holds exclusive) :
    (lock.release exclusive).1.Agrees (grants (Function.update claims n .off) (lock.release exclusive).2) bound ∧
      Granted (Function.update claims n .off) (lock.release exclusive).2 := by
  have within : n < bound := agrees.bounded n (by simp [holds])
  have lowered (flag : Bool) (same : flag = exclusive) :
      Nat.count (fun m => claims m = .holds flag) bound =
        Nat.count (fun m => Function.update claims n .off m = .holds flag) bound + 1 := by
    subst same
    exact count_raised within holds (by simp) (fun m differs => by simp [differs])
  have kept (flag : Bool) (differs : flag ≠ exclusive) :
      Nat.count (fun m => claims m = .holds flag) bound =
        Nat.count (fun m => Function.update claims n .off m = .holds flag) bound := by
    apply count_same
    intro m
    by_cases same : m = n
    · subst same
      simpa [holds] using Ne.symm differs
    · simp [same]
  have queued : ∀ m flag, (m, flag) ∈ lock.queue ↔ Function.update claims n .off m = .waits flag := by
    intro m flag
    rw [agrees.queued]
    by_cases same : m = n
    · subst same
      simp [holds]
    · simp [same]
  have bounded : ∀ m, Function.update claims n .off m ≠ .off → m < bound := by
    intro m claimed
    by_cases same : m = n
    · exact same ▸ within
    · exact agrees.bounded m (by simpa [same] using claimed)
  have readers := agrees.readers
  have writer := agrees.writer
  unfold RwLock.release
  cases exclusive with
  | true =>
      rw [if_pos rfl]
      apply pump_agrees
      rw [lowered true rfl] at writer
      rw [kept false (by simp)] at readers
      have none := Bool.toNat_le lock.writer
      exact ⟨queued, agrees.apart, readers, by rw [Bool.toNat_false]; omega, bounded⟩
  | false =>
      rw [if_neg (by simp)]
      apply pump_agrees
      rw [lowered false rfl] at readers
      rw [kept true (by simp)] at writer
      exact ⟨queued, agrees.apart, by simp only; omega, writer, bounded⟩

/-- Whoever waits for the lock waits for somebody who has it. -/
theorem lock_holder (agrees : lock.Agrees claims bound) {n : Nat} {exclusive : Bool}
    (waits : claims n = .waits exclusive) : ∃ m flag, claims m = .holds flag := by
  have queue : lock.queue ≠ [] := List.ne_nil_of_mem ((agrees.queued n exclusive).mpr waits)
  rcases agrees.rests queue with writer | readers
  · have counted := agrees.writer
    rw [writer, Bool.toNat_true] at counted
    obtain ⟨m, holds⟩ := count_exists (counted ▸ Nat.one_pos)
    exact ⟨m, true, holds⟩
  · rw [agrees.readers] at readers
    obtain ⟨m, holds⟩ := count_exists readers
    exact ⟨m, false, holds⟩

/-- One number more. -/
theorem agrees_next (agrees : lock.Agrees claims bound) : lock.Agrees claims (bound + 1) := by
  have off : claims bound = .off := by
    by_contra claimed
    exact absurd (agrees.bounded bound claimed) (Nat.lt_irrefl _)
  exact
    { agrees with
      readers := by simp [Nat.count_succ, off, agrees.readers]
      writer := by simp [Nat.count_succ, off, agrees.writer]
      bounded := fun n claimed => Nat.lt_succ_of_lt (agrees.bounded n claimed) }

end Locks

/-! The scheduler's slots. -/
section Slots

structure Limits where
  globalCap : Nat
  perWorkerWhenContended : Nat
  queueCap : Nat

/-- `opts.perWorkerWhenContended || 2` -/
def Limits.perWorker (limits : Limits) : Nat :=
  if limits.perWorkerWhenContended = 0 then 2 else limits.perWorkerWhenContended

/-- `opts.queueCap || 4096` -/
def Limits.perQueue (limits : Limits) : Nat := if limits.queueCap = 0 then 4096 else limits.queueCap

structure Scheduler where
  queues : Table (List Nat)
  active : String → Nat
  running : Nat
  order : List String

def Scheduler.fresh : Scheduler := ⟨[], fun _ => 0, 0, []⟩

variable (limits : Limits)

def Scheduler.waitingOthers (s : Scheduler) (key : String) : Bool :=
  s.queues.any fun entry => entry.1 ≠ key && !entry.2.isEmpty

/-- The next key's turn in `pump`; nothing when none of its items is taken. -/
def Scheduler.offer (s : Scheduler) : Scheduler × Option (String × Nat) :=
  match s.order with
  | [] => (s, none)
  | key :: rest =>
      let s := { s with order := rest ++ [key] }
      match s.queues.lookup key with
      | none | some [] => (s, none)
      | some (n :: waiting) =>
          if limits.perWorker ≤ s.active key && s.waitingOthers key then (s, none)
          else
            ({ s with
                queues := setKey s.queues key waiting
                active := Function.update s.active key (s.active key + 1)
                running := s.running + 1 }, some (key, n))

/-- The inner loop. -/
def Scheduler.round : Nat → Scheduler → Scheduler × List (String × Nat)
  | 0, s => (s, [])
  | left + 1, s =>
      if s.running < limits.globalCap then
        let (next, taken) := s.offer limits
        let (last, more) := Scheduler.round left next
        (last, taken.toList ++ more)
      else (s, [])

/-- The outer loop; every round but the last takes an item, so that the free slots bound it. -/
def Scheduler.rounds : Nat → Scheduler → Scheduler × List (String × Nat)
  | 0, s => (s, [])
  | left + 1, s =>
      if s.running < limits.globalCap then
        match s.round limits s.order.length with
        | (next, []) => (next, [])
        | (next, taken) =>
            let (last, more) := Scheduler.rounds left next
            (last, taken ++ more)
      else (s, [])

def Scheduler.pump (s : Scheduler) : Scheduler × List (String × Nat) :=
  s.rounds limits (limits.globalCap - s.running + 1)

/-- The key's queue, made when there is none. -/
def Scheduler.opened (s : Scheduler) (key : String) : Scheduler :=
  match s.queues.lookup key with
  | some _ => s
  | none => { s with queues := s.queues ++ [(key, [])], order := s.order ++ [key] }

/-- Nothing when the queue is full and the item is rejected; a queue that has just been made is not. -/
def Scheduler.submit (s : Scheduler) (key : String) (n : Nat) : Option (Scheduler × List (String × Nat)) :=
  let s := s.opened key
  let queue := (s.queues.lookup key).getD []
  if limits.perQueue ≤ queue.length then none
  else some (Scheduler.pump limits { s with queues := setKey s.queues key (queue ++ [n]) })

/-- The scheduler without the key, and the items that are rejected. -/
def Scheduler.forget (s : Scheduler) (key : String) : Scheduler × List Nat :=
  ({ s with queues := deleteKey s.queues key, order := s.order.filter fun other => other ≠ key },
    (s.queues.lookup key).getD [])

/-- `finally` of an item. -/
def Scheduler.finished (s : Scheduler) (key : String) : Scheduler × List (String × Nat) :=
  Scheduler.pump limits
    { s with
      running := s.running - 1
      active := Function.update s.active key ((if s.active key = 0 then 1 else s.active key) - 1) }

end Slots

/-! Whoever waits for a slot waits for somebody who has one. -/
section SlotClaims

inductive SlotClaim where
  | off
  | waits (key : String)
  | holds (key : String)
  deriving DecidableEq

def SlotClaim.held : SlotClaim → Bool
  | .holds _ => true
  | .off | .waits _ => false

@[simp]
theorem held_off : SlotClaim.off.held = false := rfl

@[simp]
theorem held_waits (key : String) : (SlotClaim.waits key).held = false := rfl

@[simp]
theorem held_holds (key : String) : (SlotClaim.holds key).held = true := rfl

theorem held_iff (claim : SlotClaim) : claim.held = true ↔ ∃ key, claim = .holds key := by
  cases claim <;> simp

/-- The claims when these items have been taken. -/
def takes (claims : Nat → SlotClaim) (taken : List (String × Nat)) : Nat → SlotClaim :=
  taken.foldl (fun claims entry => Function.update claims entry.2 (.holds entry.1)) claims

/-- Each of them waits for a slot when it is taken. -/
def Taken (claims : Nat → SlotClaim) : List (String × Nat) → Prop
  | [] => True
  | (key, n) :: rest => claims n = .waits key ∧ Taken (Function.update claims n (.holds key)) rest

structure Scheduler.Counts (s : Scheduler) (claims : Nat → SlotClaim) (bound : Nat) : Prop where
  queued : ∀ n key, (∃ queue, s.queues.lookup key = some queue ∧ n ∈ queue) ↔ claims n = .waits key
  apart : ∀ key queue, s.queues.lookup key = some queue → queue.Nodup
  ordered : ∀ key queue, s.queues.lookup key = some queue → key ∈ s.order
  running : s.running = Nat.count (fun n => (claims n).held = true) bound
  active : ∀ key, s.active key = Nat.count (fun n => claims n = .holds key) bound
  bounded : ∀ n, claims n ≠ .off → n < bound

/-- Nothing waits when no slot is in use. -/
structure Scheduler.Agrees (s : Scheduler) (claims : Nat → SlotClaim) (bound : Nat) : Prop
    extends s.Counts claims bound where
  rests : ∀ key queue, s.queues.lookup key = some queue → queue ≠ [] → 0 < s.running

variable (limits : Limits) {s : Scheduler} {claims : Nat → SlotClaim} {bound : Nat}

theorem fresh_slots_agree : Scheduler.fresh.Agrees (fun _ => .off) 0 where
  queued := by simp [Scheduler.fresh]
  apart := by simp [Scheduler.fresh]
  ordered := by simp [Scheduler.fresh]
  running := rfl
  active := fun _ => rfl
  bounded := by simp
  rests := by simp [Scheduler.fresh]

/-- The next key goes to the end. -/
theorem turned_counts {key : String} {rest : List String} (counts : s.Counts claims bound)
    (order : s.order = key :: rest) : ({ s with order := rest ++ [key] } : Scheduler).Counts claims bound :=
  { counts with
    ordered := by
      intro other queue found
      have member := counts.ordered other queue found
      rw [order, List.mem_cons] at member
      exact List.mem_append.mpr (member.elim (fun same => Or.inr (List.mem_singleton.mpr same)) Or.inl) }

/-- The first item of a queue gets a slot. -/
theorem taken_counts {key : String} {n : Nat} {waiting : List Nat} (counts : s.Counts claims bound)
    (found : s.queues.lookup key = some (n :: waiting)) :
    ({ s with
        queues := setKey s.queues key waiting
        active := Function.update s.active key (s.active key + 1)
        running := s.running + 1 } : Scheduler).Counts (Function.update claims n (.holds key)) bound := by
  have waits : claims n = .waits key := (counts.queued n key).mp ⟨_, found, List.mem_cons_self ..⟩
  have within : n < bound := counts.bounded n (by simp [waits])
  have apart := List.nodup_cons.mp (counts.apart key _ found)
  constructor
  · intro m other
    simp only [lookup_setKey]
    by_cases same : m = n
    · subst same
      simp only [Function.update_self, reduceCtorEq, iff_false]
      rintro ⟨queue, isQueue, member⟩
      split at isQueue
      · cases isQueue
        exact apart.1 member
      · rename_i differs
        have other := (counts.queued m other).mp ⟨queue, isQueue, member⟩
        rw [waits] at other
        cases other
        exact differs rfl
    · rw [Function.update_of_ne same, ← counts.queued]
      by_cases equal : other = key
      · subst equal
        simp [found, same]
      · simp [equal]
  · intro other queue isQueue
    simp only [lookup_setKey] at isQueue
    split at isQueue
    · cases isQueue
      exact apart.2
    · exact counts.apart other queue isQueue
  · intro other queue isQueue
    simp only [lookup_setKey] at isQueue
    split at isQueue
    · rename_i same
      exact same ▸ counts.ordered key _ found
    · exact counts.ordered other queue isQueue
  · simp only [counts.running]
    exact (count_raised within (by simp) (by simp [waits])
      (fun m differs => by simp [differs])).symm
  · intro other
    by_cases same : other = key
    · subst same
      simp only [Function.update_self, counts.active]
      exact (count_raised within (by simp) (by simp [waits]) (fun m differs => by simp [differs])).symm
    · simp only [Function.update_of_ne same, counts.active]
      apply count_same
      intro m
      by_cases equal : m = n
      · subst equal
        simpa [waits] using Ne.symm same
      · simp [equal]
  · intro m claimed
    by_cases same : m = n
    · exact same ▸ within
    · exact counts.bounded m (by simpa [same] using claimed)

theorem offer_counts (counts : s.Counts claims bound) :
    (s.offer limits).1.Counts (takes claims (s.offer limits).2.toList) bound ∧
      Taken claims (s.offer limits).2.toList := by
  unfold Scheduler.offer
  split
  · exact ⟨counts, trivial⟩
  · rename_i key rest order
    have turned := turned_counts counts order
    dsimp only
    split
    · exact ⟨turned, trivial⟩
    · exact ⟨turned, trivial⟩
    · rename_i n waiting found
      split
      · exact ⟨turned, trivial⟩
      · have waits := (counts.queued n key).mp ⟨_, found, List.mem_cons_self ..⟩
        exact ⟨taken_counts turned found, waits, trivial⟩

theorem takes_append (claims : Nat → SlotClaim) (first second : List (String × Nat)) :
    takes claims (first ++ second) = takes (takes claims first) second := List.foldl_append ..

theorem taken_append {first second : List (String × Nat)} (head : Taken claims first)
    (tail : Taken (takes claims first) second) : Taken claims (first ++ second) := by
  induction first generalizing claims with
  | nil => exact tail
  | cons entry rest ih => exact ⟨head.1, ih head.2 tail⟩

theorem round_counts (left : Nat) (counts : s.Counts claims bound) :
    (s.round limits left).1.Counts (takes claims (s.round limits left).2) bound ∧
      Taken claims (s.round limits left).2 := by
  induction left generalizing s claims with
  | zero => exact ⟨counts, trivial⟩
  | succ left ih =>
      unfold Scheduler.round
      split
      · obtain ⟨offered, head⟩ := offer_counts limits counts
        obtain ⟨last, tail⟩ := ih offered
        simp only [takes_append]
        exact ⟨last, taken_append head tail⟩
      · exact ⟨counts, trivial⟩

theorem rounds_counts (left : Nat) (counts : s.Counts claims bound) :
    (s.rounds limits left).1.Counts (takes claims (s.rounds limits left).2) bound ∧
      Taken claims (s.rounds limits left).2 := by
  induction left generalizing s claims with
  | zero => exact ⟨counts, trivial⟩
  | succ left ih =>
      unfold Scheduler.rounds
      split
      · have next := round_counts limits s.order.length counts
        split
        · rename_i result
          rw [result] at next
          exact next
        · rename_i result
          rw [result] at next
          obtain ⟨last, tail⟩ := ih next.1
          simp only [takes_append]
          exact ⟨last, taken_append next.2 tail⟩
      · exact ⟨counts, trivial⟩

/-- Each item that is taken is a slot more. -/
theorem offer_running : (s.offer limits).1.running = s.running + (s.offer limits).2.toList.length := by
  unfold Scheduler.offer
  split
  · rfl
  · dsimp only
    split
    · rfl
    · rfl
    · split <;> rfl

theorem round_running (left : Nat) :
    (s.round limits left).1.running = s.running + (s.round limits left).2.length := by
  induction left generalizing s with
  | zero => rfl
  | succ left ih =>
      unfold Scheduler.round
      split
      · simp only [ih, offer_running limits, List.length_append]
        omega
      · rfl

/-- A key that was passed over: it has nothing, or its share while another waits. -/
def Blocked (limits : Limits) (s : Scheduler) (key : String) : Prop :=
  ∀ queue, s.queues.lookup key = some queue →
    queue = [] ∨ limits.perWorker ≤ s.active key ∧ s.waitingOthers key = true

/-- What a key's turn leaves alone when nothing is taken. -/
structure Passed (s after : Scheduler) : Prop where
  queues : after.queues = s.queues
  active : after.active = s.active
  running : after.running = s.running

theorem Passed.blocked {after : Scheduler} (passed : Passed s after) {key : String} :
    Blocked limits after key ↔ Blocked limits s key := by
  unfold Blocked Scheduler.waitingOthers
  rw [passed.queues, passed.active]

theorem offer_none {key : String} {rest : List String} (order : s.order = key :: rest)
    (none : (s.offer limits).2 = none) :
    Blocked limits s key ∧ (s.offer limits).1 = { s with order := rest ++ [key] } := by
  unfold Scheduler.offer at none ⊢
  rw [order] at none ⊢
  dsimp only at none ⊢
  split at none
  · rename_i missing
    exact ⟨fun queue found => absurd (missing.symm.trans found) (by simp), rfl⟩
  · rename_i empty
    refine ⟨fun queue found => ?_, rfl⟩
    cases empty.symm.trans found
    exact Or.inl rfl
  · split at none
    · rename_i n waiting found full
      simp only [Bool.and_eq_true, decide_eq_true_eq] at full
      refine ⟨fun queue _ => Or.inr full, ?_⟩
      simp [full]
    · cases none

/-- A round that takes nothing has passed over every key that had its turn. -/
theorem round_none (left : Nat) (room : s.running < limits.globalCap) (within : left ≤ s.order.length)
    (none : (s.round limits left).2 = []) :
    (∀ key ∈ s.order.take left, Blocked limits s key) ∧ Passed s (s.round limits left).1 := by
  induction left generalizing s with
  | zero => exact ⟨by simp, ⟨rfl, rfl, rfl⟩⟩
  | succ left ih =>
      cases order : s.order with
      | nil => simp [order] at within
      | cons key rest =>
          unfold Scheduler.round at none ⊢
          rw [if_pos room] at none ⊢
          simp only [List.append_eq_nil_iff, Option.toList_eq_nil_iff] at none
          obtain ⟨blocked, turned⟩ := offer_none limits order none.1
          rw [turned] at none
          have within' : left ≤ rest.length := by
            rw [order, List.length_cons] at within
            omega
          obtain ⟨later, passed⟩ := ih (s := { s with order := rest ++ [key] }) room
            (by rw [List.length_append]; omega) none.2
          dsimp only
          rw [turned]
          refine ⟨?_, passed.queues, passed.active, passed.running⟩
          intro other member
          rcases List.mem_cons.mp member with rfl | member
          · exact blocked
          · apply later other
            rw [List.take_append_of_le_length within']
            exact member

/-- When `pump` stops, the slots are used up or every key with items has been passed over. -/
theorem rounds_rests (left : Nat) (room : limits.globalCap - s.running < left) (counts : s.Counts claims bound) :
    limits.globalCap ≤ (s.rounds limits left).1.running ∨ ∀ key, Blocked limits (s.rounds limits left).1 key := by
  induction left generalizing s claims with
  | zero => omega
  | succ left ih =>
      unfold Scheduler.rounds
      by_cases free : s.running < limits.globalCap
      · rw [if_pos free]
        have next := (round_counts limits s.order.length counts).1
        have running := round_running limits (s := s) s.order.length
        split
        · rename_i last result
          right
          intro key queue found
          obtain ⟨blocked, passed⟩ := round_none limits s.order.length free le_rfl (by rw [result])
          rw [result] at passed
          rw [List.take_length] at blocked
          have there : key ∈ s.order := counts.ordered key queue (passed.queues ▸ found)
          exact (passed.blocked limits).mpr (blocked key there) queue found
        · rename_i last taken some result
          rw [result] at next running
          have taken : 0 < taken.length := List.length_pos_iff.mpr fun none => some none
          simp only at running
          exact ih (by omega) next
      · rw [if_neg free]
        exact Or.inl (Nat.le_of_not_lt free)

theorem perWorker_pos (limits : Limits) : 0 < limits.perWorker := by
  unfold Limits.perWorker
  split <;> omega

theorem pump_slots (capacity : 0 < limits.globalCap) (counts : s.Counts claims bound) :
    (s.pump limits).1.Agrees (takes claims (s.pump limits).2) bound ∧ Taken claims (s.pump limits).2 := by
  obtain ⟨next, taken⟩ : (s.pump limits).1.Counts (takes claims (s.pump limits).2) bound ∧
      Taken claims (s.pump limits).2 := rounds_counts limits _ counts
  refine ⟨{ next with rests := fun key queue found some => ?_ }, taken⟩
  rcases rounds_rests limits _ (Nat.lt_succ_self _) counts with full | blocked
  · exact lt_of_lt_of_le capacity full
  · -- the key has its share of the slots already
    have share : 0 < (s.pump limits).1.active key :=
      lt_of_lt_of_le (perWorker_pos limits) ((blocked key queue found).resolve_left some).1
    rw [next.active] at share
    obtain ⟨n, holds⟩ := count_exists share
    rw [next.running]
    exact lt_of_lt_of_le share (Nat.count_mono_left fun m _ isHolder => by simp [isHolder])

theorem opened_counts (counts : s.Counts claims bound) (key : String) :
    (s.opened key).Counts claims bound ∧ ∃ queue, (s.opened key).queues.lookup key = some queue := by
  unfold Scheduler.opened
  split
  · rename_i queue found
    exact ⟨counts, queue, found⟩
  · rename_i missing
    have lookup : ∀ other, (s.queues ++ [(key, [])]).lookup other =
        if other = key then some [] else s.queues.lookup other := by
      intro other
      rw [List.lookup_append]
      by_cases same : other = key
      · subst same
        simp [missing]
      · have differs : (other == key) = false := by simpa using same
        simp [List.lookup_cons, differs, same]
    refine ⟨?_, [], by simp [lookup]⟩
    exact
      { counts with
        queued := by
          intro n other
          rw [← counts.queued]
          by_cases same : other = key
          · subst same
            simp [lookup, missing]
          · simp [lookup, same]
        apart := by
          intro other queue found
          simp only [lookup] at found
          split at found
          · cases found
            exact List.nodup_nil
          · exact counts.apart other queue found
        ordered := by
          intro other queue found
          simp only [lookup] at found
          split at found
          · rename_i same
            exact List.mem_append.mpr (Or.inr (List.mem_singleton.mpr same))
          · exact List.mem_append.mpr (Or.inl (counts.ordered other queue found)) }

theorem queued_counts (counts : s.Counts claims bound) {key : String} {queue : List Nat}
    (found : s.queues.lookup key = some queue) {n : Nat} (within : n < bound) (off : claims n = .off) :
    ({ s with queues := setKey s.queues key (queue ++ [n]) } : Scheduler).Counts
      (Function.update claims n (.waits key)) bound := by
  have absent : n ∉ queue := by
    intro member
    cases off.symm.trans ((counts.queued n key).mp ⟨queue, found, member⟩)
  constructor
  · intro m other
    simp only [lookup_setKey]
    by_cases same : m = n
    · subst same
      by_cases equal : other = key
      · subst equal
        simp
      · have none := counts.queued m other
        rw [off] at none
        simp only [equal, if_false, none, Function.update_self, SlotClaim.waits.injEq]
        simpa using Ne.symm equal
    · rw [Function.update_of_ne same, ← counts.queued]
      by_cases equal : other = key
      · subst equal
        simp [found, same]
      · simp [equal]
  · intro other held isQueue
    simp only [lookup_setKey] at isQueue
    split at isQueue
    · cases isQueue
      rw [List.nodup_append]
      refine ⟨counts.apart key queue found, List.nodup_singleton _, ?_⟩
      rintro m member other isNew rfl
      obtain rfl := List.mem_singleton.mp isNew
      exact absent member
    · exact counts.apart other held isQueue
  · intro other held isQueue
    simp only [lookup_setKey] at isQueue
    split at isQueue
    · rename_i same
      exact same ▸ counts.ordered key queue found
    · exact counts.ordered other held isQueue
  · simp only [counts.running]
    apply count_same
    intro m
    by_cases same : m = n
    · subst same
      simp [off]
    · simp [same]
  · intro other
    simp only [counts.active]
    apply count_same
    intro m
    by_cases same : m = n
    · subst same
      simp [off]
    · simp [same]
  · intro m claimed
    by_cases same : m = n
    · exact same ▸ within
    · exact counts.bounded m (by simpa [same] using claimed)

theorem submit_agrees (capacity : 0 < limits.globalCap) (agrees : s.Agrees claims bound) {key : String} {n : Nat}
    (within : n < bound) (off : claims n = .off) {after : Scheduler} {taken : List (String × Nat)}
    (submitted : s.submit limits key n = some (after, taken)) :
    after.Agrees (takes (Function.update claims n (.waits key)) taken) bound ∧
      Taken (Function.update claims n (.waits key)) taken := by
  obtain ⟨counts, queue, found⟩ := opened_counts agrees.toCounts key
  unfold Scheduler.submit at submitted
  dsimp only at submitted
  split at submitted
  · cases submitted
  · rw [found, Option.getD_some] at submitted
    have next := pump_slots limits capacity (queued_counts counts found within off)
    rw [Option.some.inj submitted] at next
    exact next

/-- A slot that is given back. -/
theorem left_counts (counts : s.Counts claims bound) {key : String} {n : Nat} (holds : claims n = .holds key) :
    ({ s with
        running := s.running - 1
        active := Function.update s.active key ((if s.active key = 0 then 1 else s.active key) - 1) } :
      Scheduler).Counts (Function.update claims n .off) bound := by
  have within : n < bound := counts.bounded n (by simp [holds])
  constructor
  · intro m other
    rw [counts.queued]
    by_cases same : m = n
    · subst same
      simp [holds]
    · simp [same]
  · exact counts.apart
  · exact counts.ordered
  · have lowered : Nat.count (fun m => (claims m).held = true) bound =
        Nat.count (fun m => (Function.update claims n .off m).held = true) bound + 1 :=
      count_raised within (by simp [holds]) (by simp)
        (fun m differs => by simp [differs])
    simp only [counts.running]
    omega
  · intro other
    by_cases same : other = key
    · subst same
      have lowered : Nat.count (fun m => claims m = .holds other) bound =
          Nat.count (fun m => Function.update claims n .off m = .holds other) bound + 1 :=
        count_raised within holds (by simp) (fun m differs => by simp [differs])
      simp only [Function.update_self, counts.active]
      split <;> omega
    · simp only [Function.update_of_ne same, counts.active]
      apply count_same
      intro m
      by_cases equal : m = n
      · subst equal
        simpa [holds] using Ne.symm same
      · simp [equal]
  · intro m claimed
    by_cases same : m = n
    · exact same ▸ within
    · exact counts.bounded m (by simpa [same] using claimed)

theorem finished_agrees (capacity : 0 < limits.globalCap) (agrees : s.Agrees claims bound) {key : String} {n : Nat}
    (holds : claims n = .holds key) :
    (s.finished limits key).1.Agrees (takes (Function.update claims n .off) (s.finished limits key).2) bound ∧
      Taken (Function.update claims n .off) (s.finished limits key).2 :=
  pump_slots limits capacity (left_counts agrees.toCounts holds)

/-- The claims without those of a key that is forgotten. -/
def forgets (claims : Nat → SlotClaim) (rejected : List Nat) : Nat → SlotClaim :=
  fun n => if n ∈ rejected then .off else claims n

theorem forget_rejected (counts : s.Counts claims bound) (key : String) (n : Nat) :
    n ∈ (s.forget key).2 ↔ claims n = .waits key := by
  rw [← counts.queued]
  unfold Scheduler.forget
  cases found : s.queues.lookup key <;> simp

theorem forget_counts (counts : s.Counts claims bound) (key : String) :
    (s.forget key).1.Counts (forgets claims (s.forget key).2) bound := by
  have rejected := forget_rejected counts key
  have holders : ∀ n held, forgets claims (s.forget key).2 n = .holds held ↔ claims n = .holds held := by
    intro n held
    unfold forgets
    split
    · rename_i member
      simp [(rejected n).mp member]
    · rfl
  constructor
  · intro n other
    simp only [Scheduler.forget, lookup_deleteKey]
    by_cases same : other = key
    · subst same
      unfold forgets
      simp only [if_true, reduceCtorEq, false_and, exists_false, false_iff]
      split
      · simp
      · rename_i kept
        exact fun waits => kept ((rejected n).mpr waits)
    · rw [if_neg same, counts.queued]
      unfold forgets
      split
      · rename_i member
        simpa [(rejected n).mp member] using Ne.symm same
      · rfl
  · intro other queue found
    simp only [Scheduler.forget, lookup_deleteKey] at found
    split at found
    · cases found
    · exact counts.apart other queue found
  · intro other queue found
    simp only [Scheduler.forget, lookup_deleteKey] at found ⊢
    split at found
    · cases found
    · rename_i differs
      exact List.mem_filter.mpr ⟨counts.ordered other queue found, by simpa using differs⟩
  · exact counts.running.trans (count_same fun n => by simp only [held_iff, holders])
  · intro other
    exact (counts.active other).trans (count_same fun n => (holders n other).symm)
  · intro n claimed
    apply counts.bounded n
    intro off
    unfold forgets at claimed
    rw [off] at claimed
    split at claimed <;> exact claimed rfl

theorem forget_agrees (agrees : s.Agrees claims bound) (key : String) :
    (s.forget key).1.Agrees (forgets claims (s.forget key).2) bound where
  toCounts := forget_counts agrees.toCounts key
  rests := by
    intro other queue found some
    simp only [Scheduler.forget, lookup_deleteKey] at found ⊢
    split at found
    · cases found
    · exact agrees.rests other queue found some

theorem slot_holder (agrees : s.Agrees claims bound) {n : Nat} {key : String} (waits : claims n = .waits key) :
    ∃ m held, claims m = .holds held := by
  obtain ⟨queue, found, member⟩ := (agrees.queued n key).mpr waits
  have running := agrees.rests key queue found (List.ne_nil_of_mem member)
  rw [agrees.running] at running
  obtain ⟨m, isHeld⟩ := count_exists running
  exact ⟨m, (held_iff _).mp isHeld⟩

theorem counts_next (counts : s.Counts claims bound) : claims bound = .off ∧ s.Counts claims (bound + 1) := by
  have off : claims bound = .off := by
    by_contra claimed
    exact absurd (counts.bounded bound claimed) (Nat.lt_irrefl _)
  exact ⟨off,
    { counts with
      running := by simp [Nat.count_succ, off, counts.running]
      active := fun key => by simp [Nat.count_succ, off, counts.active]
      bounded := fun n claimed => Nat.lt_succ_of_lt (counts.bounded n claimed) }⟩

theorem slots_agree_next (agrees : s.Agrees claims bound) : s.Agrees claims (bound + 1) :=
  { (counts_next agrees.toCounts).2 with rests := agrees.rests }

end SlotClaims

end Countinghouse.BrokerQueues
