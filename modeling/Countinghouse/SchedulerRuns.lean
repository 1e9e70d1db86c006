import Countinghouse.SchedulerTurns

/-!
Runs of the scheduler of lib/fs-broker/scheduler.js. A task is a number with its key. It has a
slot from the turn of `pump` that takes it to the `finally` behind it; it starts in a later
microtask, in the order of the turns, and its promise is settled when it ends.
-/

namespace Countinghouse.SchedulerRuns

open PlainObject BrokerQueues SchedulerTurns

variable (limits : Limits)

/-! Tasks and what befalls them. -/
section Runs

/-- How a promise of `submit` is settled: as the task ends, with EMFILE, or with EIO. -/
inductive Answer where
  | resolved
  | rejected
  | full
  | forgotten
  deriving DecidableEq

/-- `due` have a slot and have not started; `leaving` have ended and have their slot still. -/
structure State where
  scheduler : Scheduler
  next : Nat
  submitted : List (String × Nat)
  due : List (String × Nat)
  started : List (String × Nat)
  answers : List (Nat × Answer)
  leaving : List (String × Nat)
  moments : List Moment

def State.fresh : State := ⟨Scheduler.fresh, 0, [], [], [], [], [], []⟩

inductive Event where
  | submit (key : String)
  | start
  | finish (item : String × Nat) (thrown : Bool)
  | leave (item : String × Nat)
  | forget (key : String)

/-- `q.push`, before `pump` -/
def pushed (s : Scheduler) (key : String) (n : Nat) : Scheduler :=
  { s.opened key with queues := setKey (s.opened key).queues key (queueOf (s.opened key) key ++ [n]) }

/-- The slot is given back, before `pump`. -/
def vacated (s : Scheduler) (key : String) : Scheduler :=
  { s with
    running := s.running - 1
    active := Function.update s.active key ((if s.active key = 0 then 1 else s.active key) - 1) }

def State.answered (s : State) : List Nat := s.answers.map Prod.fst

/-- An event that cannot be leaves the state alone. -/
def State.step (s : State) : Event → State
  | .submit key =>
      match s.scheduler.submit limits key s.next with
      | none =>
          { s with
            scheduler := s.scheduler.opened key
            next := s.next + 1
            answers := s.answers ++ [(s.next, .full)]
            moments := s.moments ++ [⟨s.scheduler, none⟩] }
      | some (after, taken) =>
          { s with
            scheduler := after
            next := s.next + 1
            submitted := s.submitted ++ [(key, s.next)]
            due := s.due ++ taken
            moments := s.moments ++ ⟨s.scheduler, none⟩ :: pumpMoments limits (pushed s.scheduler key s.next) }
  | .start =>
      match s.due with
      | [] => s
      | item :: rest => { s with due := rest, started := s.started ++ [item] }
  | .finish item thrown =>
      -- a throw of the task itself and a rejection of its promise are one to `then`
      if item ∈ s.started ∧ item.2 ∉ s.answered then
        { s with
          answers := s.answers ++ [(item.2, if thrown then .rejected else .resolved)]
          leaving := s.leaving ++ [item] }
      else s
  | .leave item =>
      if item ∈ s.leaving then
        { s with
          scheduler := (s.scheduler.finished limits item.1).1
          due := s.due ++ (s.scheduler.finished limits item.1).2
          leaving := s.leaving.erase item
          moments := s.moments ++ ⟨s.scheduler, none⟩ :: pumpMoments limits (vacated s.scheduler item.1) }
      else s
  | .forget key =>
      { s with
        scheduler := (s.scheduler.forget key).1
        answers := s.answers ++ (s.scheduler.forget key).2.map fun n => (n, .forgotten)
        moments := s.moments ++ [⟨s.scheduler, none⟩] }

def State.run (events : List Event) : State := events.foldl (State.step limits) State.fresh

end Runs

/-! What is asked of a run. -/
section Rules

/-- The slots in use are those of the keys, and no more than there are. -/
def Accounts (s : State) : Prop :=
  s.scheduler.running = ∑ key ∈ (s.submitted.map Prod.fst).toFinset, s.scheduler.active key ∧
    (∀ key ∉ (s.submitted.map Prod.fst).toFinset, s.scheduler.active key = 0) ∧
      s.scheduler.running ≤ limits.globalCap

/-- Each task starts once at most, and those of one key in the order of their submission. -/
def InOrder (s : State) : Prop :=
  ((s.started ++ s.due).map Prod.snd).Nodup ∧ (s.submitted.map Prod.snd).Nodup ∧
    ∀ key, (ofKey key (s.started ++ s.due)).Sublist (ofKey key s.submitted)

/-- No promise is settled twice, and when what has started has ended, all are settled. -/
def SettledOnce (s : State) : Prop :=
  s.answered.Nodup ∧
    (s.due = [] → s.leaving = [] → (∀ item ∈ s.started, item.2 ∈ s.answered) →
      ∀ item ∈ s.submitted, item.2 ∈ s.answered)

/-- `forget` rejects what was accepted for the key and has neither a slot nor an answer, and nothing else. -/
def Forgets (s : State) : Prop :=
  ∀ key n, (n, Answer.forgotten) ∈ (s.step limits (.forget key)).answers ∧ n ∉ s.answered ↔
    (key, n) ∈ s.submitted ∧ (key, n) ∉ s.started ++ s.due ∧ n ∉ s.answered

/-- Between two turns of one key there is one of each other key that waits all the time with less than its share. -/
def Fair (s : State) : Prop :=
  s.moments.filterMap Moment.taken = s.started ++ s.due ∧
    ∀ earlier m between m' later x y n n', s.moments = earlier ++ m :: (between ++ m' :: later) → y ≠ x →
      m.taken = some (x, n) → m'.taken = some (x, n') → (∀ moment ∈ between ++ [m'], Waits limits moment.state y) →
        ∃ moment ∈ between, ∃ k, moment.taken = some (y, k)

/-- When no `finally` is to come and a slot is free, whoever waits has its share while another waits. -/
def Conserves (s : State) : Prop :=
  s.leaving = [] → s.scheduler.running < limits.globalCap → ∀ key, queueOf s.scheduler key ≠ [] →
    limits.perWorker ≤ s.scheduler.active key ∧ ∃ other, other ≠ key ∧ queueOf s.scheduler other ≠ []

/-- No key is the last one that waits when this one is forgotten while a slot is free. -/
def Timely (s : State) (key : String) : Prop :=
  s.leaving = [] → s.scheduler.running < limits.globalCap → ∀ other, other ≠ key → queueOf s.scheduler other ≠ [] →
    ∃ third, third ≠ key ∧ third ≠ other ∧ queueOf s.scheduler third ≠ []

end Rules

/-! The claims when items have been taken. -/
section Claims

variable {claims : Nat → SlotClaim} {taken : List (String × Nat)}

theorem takes_holds (each : Taken claims taken) (n : Nat) (key : String) :
    takes claims taken n = .holds key ↔ claims n = .holds key ∨ (key, n) ∈ taken := by
  induction taken generalizing claims with
  | nil => simp [takes]
  | cons item rest ih =>
      obtain ⟨waits, later⟩ := each
      have next : takes claims (item :: rest) = takes (Function.update claims item.2 (.holds item.1)) rest := rfl
      rw [next, ih later]
      by_cases same : n = item.2
      · subst same
        rw [Function.update_self, List.mem_cons, waits]
        constructor
        · rintro (isKey | member)
          · cases isKey
            exact Or.inr (Or.inl rfl)
          · exact Or.inr (Or.inr member)
        · rintro (no | here | member)
          · cases no
          · exact Or.inl (by rw [← here])
          · exact Or.inr member
      · have differs : (key, n) ≠ item := fun equal => same (congrArg Prod.snd equal)
        rw [Function.update_of_ne same, List.mem_cons]
        simp [differs]

theorem takes_waits (each : Taken claims taken) (n : Nat) (key : String) :
    takes claims taken n = .waits key ↔ claims n = .waits key ∧ (key, n) ∉ taken := by
  induction taken generalizing claims with
  | nil => simp [takes]
  | cons item rest ih =>
      obtain ⟨waits, later⟩ := each
      have next : takes claims (item :: rest) = takes (Function.update claims item.2 (.holds item.1)) rest := rfl
      rw [next, ih later]
      by_cases same : n = item.2
      · subst same
        rw [Function.update_self, waits, List.mem_cons]
        constructor
        · rintro ⟨no, -⟩
          cases no
        · rintro ⟨isKey, absent⟩
          cases isKey
          exact absurd (Or.inl rfl) absent
      · have differs : (key, n) ≠ item := fun equal => same (congrArg Prod.snd equal)
        rw [Function.update_of_ne same, List.mem_cons]
        simp [differs]

theorem takes_off (each : Taken claims taken) (n : Nat) : takes claims taken n = .off ↔ claims n = .off := by
  induction taken generalizing claims with
  | nil => rfl
  | cons item rest ih =>
      obtain ⟨waits, later⟩ := each
      have next : takes claims (item :: rest) = takes (Function.update claims item.2 (.holds item.1)) rest := rfl
      rw [next, ih later]
      by_cases same : n = item.2
      · subst same
        simp [waits]
      · rw [Function.update_of_ne same]

theorem count_ofKey (key : String) (n : Nat) (items : List (String × Nat)) :
    (ofKey key items).count n = items.count (key, n) := by
  induction items with
  | nil => rfl
  | cons item rest ih =>
      obtain ⟨other, m⟩ := item
      by_cases same : other = key
      · subst same
        by_cases equal : m = n <;> simp_all [ofKey]
      · simp_all [ofKey]

end Claims

/-! What holds in every state of a run. -/
section Invariant

structure Sound (s : State) (claims : Nat → SlotClaim) : Prop where
  counts : s.scheduler.Counts claims s.next
  capped : s.scheduler.running ≤ limits.globalCap
  holds : ∀ n key, claims n = .holds key ↔
    (key, n) ∈ s.due ∨ (key, n) ∈ s.started ∧ n ∉ s.answered ∨ (key, n) ∈ s.leaving
  numbered : (s.submitted.map Prod.snd).Nodup
  bounded : ∀ item ∈ s.submitted, item.2 < s.next
  ordered : ∀ key, ∃ gone, ofKey key s.submitted = gone ++ queueOf s.scheduler key ∧
    (ofKey key (s.started ++ s.due)).Sublist gone
  answered : ∀ n ∈ s.answered, n < s.next ∧ (claims n = .off ∨ ∃ key, (key, n) ∈ s.leaving)
  once : s.answered.Nodup
  ended : ∀ item ∈ s.leaving, item ∈ s.started ∧ item.2 ∈ s.answered
  apart : s.leaving.Nodup
  accounted : ∀ item ∈ s.submitted,
    claims item.2 = .waits item.1 ∨ item ∈ s.started ++ s.due ∨ item.2 ∈ s.answered
  path : Path limits Scheduler.fresh s.moments s.scheduler
  taken : s.moments.filterMap Moment.taken = s.started ++ s.due

variable {limits} {s : State} {claims : Nat → SlotClaim}

theorem fresh_sound : Sound limits State.fresh fun _ => .off where
  counts := fresh_slots_agree.toCounts
  capped := Nat.zero_le _
  holds := by simp [State.fresh]
  numbered := List.nodup_nil
  bounded := by simp [State.fresh]
  ordered := fun key => ⟨[], rfl, List.Sublist.refl _⟩
  answered := by simp [State.fresh, State.answered]
  once := List.nodup_nil
  ended := by simp [State.fresh]
  apart := List.nodup_nil
  accounted := by simp [State.fresh]
  path := .done _
  taken := rfl

theorem Sound.orderly (sound : Sound limits s claims) : Orderly s.scheduler := sound.path.orderly fresh_orderly

theorem queue_waits (counts : s.scheduler.Counts claims s.next) {n : Nat} {key : String} :
    n ∈ queueOf s.scheduler key ↔ claims n = .waits key := by
  rw [← counts.queued]
  cases found : s.scheduler.queues.lookup key <;> simp [queueOf, found]

theorem Sound.started_submitted (sound : Sound limits s claims) {item : String × Nat}
    (member : item ∈ s.started ++ s.due) : item ∈ s.submitted := by
  obtain ⟨gone, split, sublist⟩ := sound.ordered item.1
  have inGone : item.2 ∈ gone := sublist.subset (mem_ofKey.mpr member)
  exact mem_ofKey.mp (split ▸ List.mem_append_left _ inGone)

theorem Sound.waits_submitted (sound : Sound limits s claims) {n : Nat} {key : String} (waits : claims n = .waits key) :
    (key, n) ∈ s.submitted := by
  obtain ⟨gone, split, -⟩ := sound.ordered key
  exact mem_ofKey.mp (split ▸ List.mem_append_right _ ((queue_waits sound.counts).mpr waits))

theorem Sound.same_key (sound : Sound limits s claims) {n : Nat} {key other : String} (here : (key, n) ∈ s.submitted)
    (there : (other, n) ∈ s.submitted) : key = other :=
  congrArg Prod.fst (List.inj_on_of_nodup_map sound.numbered here there rfl)

theorem Sound.starts_nodup (sound : Sound limits s claims) : (s.started ++ s.due).Nodup := by
  rw [List.nodup_iff_count_le_one]
  rintro ⟨key, n⟩
  obtain ⟨gone, split, sublist⟩ := sound.ordered key
  have single : s.submitted.count (key, n) ≤ 1 :=
    List.nodup_iff_count_le_one.mp (List.Nodup.of_map _ sound.numbered) (key, n)
  calc (s.started ++ s.due).count (key, n) = (ofKey key (s.started ++ s.due)).count n := (count_ofKey ..).symm
    _ ≤ gone.count n := sublist.count_le n
    _ ≤ (ofKey key s.submitted).count n := by rw [split, List.count_append]; omega
    _ = s.submitted.count (key, n) := count_ofKey ..
    _ ≤ 1 := single

/-- What waits for a slot has not started and has no answer. -/
theorem Sound.waits_fresh (sound : Sound limits s claims) {n : Nat} {key : String} (waits : claims n = .waits key) :
    (key, n) ∉ s.started ++ s.due ∧ n ∉ s.answered := by
  have unanswered : n ∉ s.answered := by
    intro member
    rcases (sound.answered n member).2 with off | ⟨other, leaving⟩
    · cases waits.symm.trans off
    · cases waits.symm.trans ((sound.holds n other).mpr (Or.inr (Or.inr leaving)))
  refine ⟨fun member => ?_, unanswered⟩
  have holds : claims n = .holds key := by
    rw [sound.holds]
    rcases List.mem_append.mp member with started | due
    · exact Or.inr (Or.inl ⟨started, unanswered⟩)
    · exact Or.inl due
  cases waits.symm.trans holds

/-- What has not started has no answer. -/
theorem Sound.due_unanswered (sound : Sound limits s claims) {item : String × Nat} (due : item ∈ s.due) :
    item.2 ∉ s.answered := by
  intro member
  have holds : claims item.2 = .holds item.1 := (sound.holds ..).mpr (Or.inl due)
  rcases (sound.answered _ member).2 with off | ⟨other, leaving⟩
  · cases holds.symm.trans off
  · have started := (sound.ended _ leaving).1
    have same : item.1 = other := sound.same_key (sound.started_submitted (List.mem_append_right _ due))
      (sound.started_submitted (List.mem_append_left _ started))
    have apart := (List.nodup_append.mp sound.starts_nodup).2.2 _ started _ due
    exact apart (by rw [← same])

end Invariant

/-! What each event keeps. -/
section Steps

variable {limits} {s : State} {claims : Nat → SlotClaim}

theorem opened_queue (scheduler : Scheduler) (key other : String) :
    queueOf (scheduler.opened key) other = queueOf scheduler other := by
  unfold Scheduler.opened
  split
  · rfl
  · rename_i missing
    by_cases same : other = key
    · subst same
      simp [queueOf, List.lookup_append, missing]
    · have differs : (other == key) = false := by simpa using same
      simp [queueOf, List.lookup_append, List.lookup_cons, differs]

theorem pushed_queue (scheduler : Scheduler) (key other : String) (n : Nat) :
    queueOf (pushed scheduler key n) other =
      if other = key then queueOf scheduler key ++ [n] else queueOf scheduler other := by
  unfold pushed
  simp only [queueOf, lookup_setKey]
  split
  · exact congrArg (· ++ [n]) (opened_queue scheduler key key)
  · exact opened_queue scheduler key other

/-- A queue that is full is one that there is. -/
theorem refused_opened {scheduler : Scheduler} {key : String} {n : Nat} (refused : scheduler.submit limits key n = none) :
    scheduler.opened key = scheduler := by
  unfold Scheduler.opened
  split
  · rfl
  · rename_i missing
    have room : 0 < limits.perQueue := by
      unfold Limits.perQueue
      split <;> omega
    simp [Scheduler.submit, Scheduler.opened, missing, List.lookup_append, Nat.not_le.mpr room] at refused

/-- The state between `q.push` and `pump`. -/
def State.push (s : State) (key : String) : State :=
  { s with
    scheduler := pushed s.scheduler key s.next
    next := s.next + 1
    submitted := s.submitted ++ [(key, s.next)]
    moments := s.moments ++ [⟨s.scheduler, none⟩] }

/-- The state in a `finally` before `pump`. -/
def State.vacate (s : State) (item : String × Nat) : State :=
  { s with
    scheduler := vacated s.scheduler item.1
    leaving := s.leaving.erase item
    moments := s.moments ++ [⟨s.scheduler, none⟩] }

def State.pump (limits : Limits) (s : State) : State :=
  { s with
    scheduler := (s.scheduler.pump limits).1
    due := s.due ++ (s.scheduler.pump limits).2
    moments := s.moments ++ pumpMoments limits s.scheduler }

theorem step_submit (limits : Limits) (s : State) (key : String) :
    s.step limits (.submit key) = (s.push key).pump limits ∨
      s.scheduler.opened key = s.scheduler ∧ s.step limits (.submit key) =
        { s with
          next := s.next + 1
          answers := s.answers ++ [(s.next, .full)]
          moments := s.moments ++ [⟨s.scheduler, none⟩] } := by
  have pumps : s.scheduler.submit limits key s.next =
      if limits.perQueue ≤ (queueOf (s.scheduler.opened key) key).length then none
      else some ((pushed s.scheduler key s.next).pump limits) := rfl
  cases result : s.scheduler.submit limits key s.next with
  | none =>
      right
      have same := refused_opened result
      exact ⟨same, by simp only [State.step, result, same]⟩
  | some pair =>
      left
      rw [result] at pumps
      have same : pair = (pushed s.scheduler key s.next).pump limits := by
        split at pumps
        · cases pumps
        · exact Option.some.inj pumps
      simp [State.step, result, same, State.pump, State.push]

theorem step_leave {item : String × Nat} (member : item ∈ s.leaving) :
    s.step limits (.leave item) = (s.vacate item).pump limits := by
  simp [State.step, member, State.pump, State.vacate, Scheduler.finished, vacated]

theorem moment_taken (moments : List Moment) (state : Scheduler) :
    (moments ++ [(⟨state, none⟩ : Moment)]).filterMap Moment.taken = moments.filterMap Moment.taken := by
  simp

theorem push_sound (sound : Sound limits s claims) (key : String) :
    Sound limits (s.push key) (Function.update claims s.next (.waits key)) := by
  obtain ⟨off, later⟩ := counts_next sound.counts
  obtain ⟨opened, queue, found⟩ := opened_counts later key
  have fresh : s.next ∉ s.submitted.map Prod.snd := by
    intro member
    obtain ⟨item, there, number⟩ := List.mem_map.mp member
    exact absurd (sound.bounded item there) (by omega)
  constructor
  · have counts := queued_counts opened found (Nat.lt_succ_self _) off
    simpa [State.push, pushed, queueOf, found] using counts
  · have same : (pushed s.scheduler key s.next).running = s.scheduler.running := by
      unfold pushed Scheduler.opened
      split <;> rfl
    exact same.trans_le sound.capped
  · intro n other
    by_cases same : n = s.next
    · subst same
      have none := sound.holds s.next other
      rw [off] at none
      simpa [State.push, State.answered] using none
    · rw [Function.update_of_ne same]
      exact sound.holds n other
  · show ((s.submitted ++ [(key, s.next)]).map Prod.snd).Nodup
    rw [List.map_append]
    exact (List.perm_append_singleton _ _).nodup_iff.mpr (List.nodup_cons.mpr ⟨fresh, sound.numbered⟩)
  · intro item member
    rcases List.mem_append.mp member with old | new
    · exact Nat.lt_succ_of_lt (sound.bounded item old)
    · rw [List.mem_singleton.mp new]
      exact Nat.lt_succ_self _
  · intro other
    obtain ⟨gone, split, sublist⟩ := sound.ordered other
    refine ⟨gone, ?_, sublist⟩
    show ofKey other (s.submitted ++ [(key, s.next)]) = gone ++ queueOf (pushed s.scheduler key s.next) other
    rw [ofKey_append, split, pushed_queue, ofKey_single]
    by_cases same : other = key
    · subst same
      simp
    · simp [same, Ne.symm same]
  · intro n member
    obtain ⟨within, settled⟩ := sound.answered n member
    rw [Function.update_of_ne within.ne]
    exact ⟨Nat.lt_succ_of_lt within, settled⟩
  · exact sound.once
  · exact sound.ended
  · exact sound.apart
  · intro item member
    rcases List.mem_append.mp member with old | new
    · rw [Function.update_of_ne (sound.bounded item old).ne]
      exact sound.accounted item old
    · rw [List.mem_singleton.mp new]
      exact Or.inl (Function.update_self ..)
  · exact sound.path.append (.one (.push key s.next))
  · exact (moment_taken ..).trans sound.taken

theorem pump_sound (capacity : 0 < limits.globalCap) (sound : Sound limits s claims) :
    Sound limits (s.pump limits) (takes claims (s.scheduler.pump limits).2) := by
  obtain ⟨agrees, each⟩ := pump_slots limits capacity sound.counts
  constructor
  · exact agrees.toCounts
  · exact pump_capped limits sound.capped
  · intro n key
    rw [takes_holds each, sound.holds]
    show _ ↔ (key, n) ∈ s.due ++ _ ∨ _
    rw [List.mem_append]
    tauto
  · exact sound.numbered
  · exact sound.bounded
  · intro key
    obtain ⟨gone, split, sublist⟩ := sound.ordered key
    refine ⟨gone ++ ofKey key (s.scheduler.pump limits).2, ?_, ?_⟩
    · show _ = _ ++ queueOf (s.scheduler.pump limits).1 key
      rw [List.append_assoc, ← pump_queue]
      exact split
    · show (ofKey key (s.started ++ (s.due ++ _))).Sublist _
      rw [← List.append_assoc, ofKey_append]
      exact sublist.append (List.Sublist.refl _)
  · intro n member
    rw [takes_off each]
    exact sound.answered n member
  · exact sound.once
  · exact sound.ended
  · exact sound.apart
  · intro item member
    show _ ∨ item ∈ s.started ++ (s.due ++ _) ∨ _
    rw [takes_waits each, ← List.append_assoc, List.mem_append]
    have accounted := sound.accounted item member
    tauto
  · exact sound.path.append pump_path
  · show (s.moments ++ pumpMoments limits s.scheduler).filterMap Moment.taken = s.started ++ (s.due ++ _)
    rw [List.filterMap_append, sound.taken, pump_taken, List.append_assoc]

theorem answered_append (answers more : List (Nat × Answer)) (n : Nat) :
    n ∈ (answers ++ more).map Prod.fst ↔ n ∈ answers.map Prod.fst ∨ n ∈ more.map Prod.fst := by
  rw [List.map_append, List.mem_append]

theorem once_append {answers more : List (Nat × Answer)} (once : (answers.map Prod.fst).Nodup)
    (each : (more.map Prod.fst).Nodup) (apart : ∀ n ∈ more.map Prod.fst, n ∉ answers.map Prod.fst) :
    ((answers ++ more).map Prod.fst).Nodup := by
  rw [List.map_append, List.nodup_append]
  refine ⟨once, each, ?_⟩
  rintro n old other new rfl
  exact apart n new old

theorem refuse_sound (sound : Sound limits s claims) {key : String} (same : s.scheduler.opened key = s.scheduler) :
    Sound limits
      { s with
        next := s.next + 1
        answers := s.answers ++ [(s.next, .full)]
        moments := s.moments ++ [⟨s.scheduler, none⟩] } claims := by
  obtain ⟨off, later⟩ := counts_next sound.counts
  have opens : Change limits s.scheduler none (s.scheduler.opened key) := .open key
  rw [same] at opens
  constructor
  · exact later
  · exact sound.capped
  · intro n key
    rw [sound.holds]
    show _ ↔ _ ∨ (key, n) ∈ s.started ∧ n ∉ (s.answers ++ [(s.next, Answer.full)]).map Prod.fst ∨ _
    rw [answered_append]
    have none : (key, n) ∈ s.started → n ≠ s.next := fun member =>
      (sound.bounded _ (sound.started_submitted (List.mem_append_left _ member))).ne
    simp only [List.map_cons, List.map_nil, List.mem_singleton, State.answered]
    tauto
  · exact sound.numbered
  · exact fun item member => Nat.lt_succ_of_lt (sound.bounded item member)
  · exact sound.ordered
  · intro n member
    rcases (answered_append ..).mp member with old | new
    · exact ⟨Nat.lt_succ_of_lt (sound.answered n old).1, (sound.answered n old).2⟩
    · obtain rfl : n = s.next := by simpa using new
      exact ⟨Nat.lt_succ_self _, Or.inl off⟩
  · refine once_append sound.once (List.nodup_singleton _) ?_
    rintro n new old
    obtain rfl : n = s.next := by simpa using new
    exact absurd (sound.answered _ old).1 (Nat.lt_irrefl _)
  · exact fun item member => ⟨(sound.ended item member).1, (answered_append ..).mpr (Or.inl (sound.ended item member).2)⟩
  · exact sound.apart
  · intro item member
    have accounted := sound.accounted item member
    exact accounted.imp_right (Or.imp_right fun old => (answered_append ..).mpr (Or.inl old))
  · exact sound.path.append (.one opens)
  · exact (moment_taken ..).trans sound.taken

theorem start_sound (sound : Sound limits s claims) : Sound limits (s.step limits .start) claims := by
  unfold State.step
  dsimp only
  split
  · exact sound
  · rename_i item rest due
    have moved : s.started ++ s.due = (s.started ++ [item]) ++ rest := by simp [due]
    constructor
    · exact sound.counts
    · exact sound.capped
    · intro n key
      have unanswered : item.2 ∉ s.answered := sound.due_unanswered (by simp [due])
      rw [sound.holds, due]
      show _ ↔ (key, n) ∈ rest ∨ (key, n) ∈ s.started ++ [item] ∧ _ ∨ _
      simp only [List.mem_cons, List.mem_append, List.not_mem_nil, or_false]
      have fresh : (key, n) = item → n ∉ s.answered := fun same => by rw [← same] at unanswered; exact unanswered
      show _ ↔ _ ∨ _ ∧ n ∉ s.answered ∨ _
      tauto
    · exact sound.numbered
    · exact sound.bounded
    · intro key
      obtain ⟨gone, split, sublist⟩ := sound.ordered key
      exact ⟨gone, split, moved ▸ sublist⟩
    · exact sound.answered
    · exact sound.once
    · exact fun member there => ⟨List.mem_append_left _ (sound.ended member there).1, (sound.ended member there).2⟩
    · exact sound.apart
    · intro member there
      have accounted := sound.accounted member there
      rw [moved] at accounted
      exact accounted
    · exact sound.path
    · exact sound.taken.trans moved

theorem finish_sound (sound : Sound limits s claims) (item : String × Nat) (thrown : Bool) :
    Sound limits (s.step limits (.finish item thrown)) claims := by
  unfold State.step
  dsimp only
  split
  swap
  · exact sound
  rename_i running
  obtain ⟨started, unanswered⟩ := running
  have mine : ∀ key, (key, item.2) ∈ s.started → (key, item.2) = item := fun key member =>
    Prod.ext (sound.same_key (sound.started_submitted (List.mem_append_left _ member))
      (sound.started_submitted (List.mem_append_left _ started))) rfl
  constructor
  · exact sound.counts
  · exact sound.capped
  · intro n key
    rw [sound.holds]
    show _ ↔ _ ∨ _ ∧ n ∉ (s.answers ++ _).map Prod.fst ∨ (key, n) ∈ s.leaving ++ [item]
    rw [answered_append]
    simp only [List.map_cons, List.map_nil, List.mem_singleton, List.mem_append]
    by_cases same : n = item.2
    · subst same
      have isItem := mine key
      by_cases equal : (key, item.2) = item
      · simp [equal, unanswered, started]
      · have absent : (key, item.2) ∉ s.started := fun member => equal (isItem member)
        simp [absent, equal]
    · have differs : (key, n) ≠ item := fun equal => same (congrArg Prod.snd equal)
      simp [same, differs, State.answered]
  · exact sound.numbered
  · exact sound.bounded
  · exact sound.ordered
  · intro n member
    rcases (answered_append ..).mp member with old | new
    · refine ⟨(sound.answered n old).1, (sound.answered n old).2.imp_right ?_⟩
      rintro ⟨key, leaving⟩
      exact ⟨key, List.mem_append_left _ leaving⟩
    · obtain rfl : n = item.2 := by simpa using new
      exact ⟨sound.bounded item (sound.started_submitted (List.mem_append_left _ started)),
        Or.inr ⟨item.1, List.mem_append_right _ (List.mem_singleton_self item)⟩⟩
  · refine once_append sound.once (List.nodup_singleton _) ?_
    rintro n new old
    obtain rfl : n = item.2 := by simpa using new
    exact unanswered old
  · intro other member
    rcases List.mem_append.mp member with old | new
    · exact ⟨(sound.ended other old).1, (answered_append ..).mpr (Or.inl (sound.ended other old).2)⟩
    · obtain rfl := List.mem_singleton.mp new
      exact ⟨started, (answered_append ..).mpr (Or.inr (by simp))⟩
  · have absent : item ∉ s.leaving := fun member => unanswered (sound.ended item member).2
    exact (List.perm_append_singleton _ _).nodup_iff.mpr (List.nodup_cons.mpr ⟨absent, sound.apart⟩)
  · intro other member
    have accounted := sound.accounted other member
    exact accounted.imp_right (Or.imp_right fun old => (answered_append ..).mpr (Or.inl old))
  · exact sound.path
  · exact sound.taken

theorem vacate_sound (sound : Sound limits s claims) {item : String × Nat} (leaving : item ∈ s.leaving) :
    Sound limits (s.vacate item) (Function.update claims item.2 .off) := by
  have holds : claims item.2 = .holds item.1 := (sound.holds ..).mpr (Or.inr (Or.inr leaving))
  obtain ⟨started, answered⟩ := sound.ended item leaving
  have mine : ∀ key, (key, item.2) ∈ s.leaving → (key, item.2) = item := fun key member =>
    Prod.ext (sound.same_key (sound.started_submitted (List.mem_append_left _ (sound.ended _ member).1))
      (sound.started_submitted (List.mem_append_left _ started))) rfl
  constructor
  · exact left_counts sound.counts holds
  · exact (Nat.sub_le ..).trans sound.capped
  · intro n key
    show _ ↔ _ ∨ _ ∨ (key, n) ∈ s.leaving.erase item
    rw [sound.apart.mem_erase_iff]
    by_cases same : n = item.2
    · subst same
      rw [Function.update_self]
      have due : (key, item.2) ∉ s.due := fun member => sound.due_unanswered member answered
      have isItem := mine key
      simp only [reduceCtorEq, false_iff]
      rintro (member | ⟨-, unanswered⟩ | ⟨differs, member⟩)
      · exact due member
      · exact unanswered answered
      · exact differs (isItem member)
    · have differs : (key, n) ≠ item := fun equal => same (congrArg Prod.snd equal)
      rw [Function.update_of_ne same, sound.holds]
      simp [differs, State.vacate, State.answered]
  · exact sound.numbered
  · exact sound.bounded
  · exact sound.ordered
  · intro n member
    refine ⟨(sound.answered n member).1, ?_⟩
    by_cases same : n = item.2
    · subst same
      exact Or.inl (Function.update_self ..)
    · rw [Function.update_of_ne same]
      refine (sound.answered n member).2.imp_right ?_
      rintro ⟨key, there⟩
      exact ⟨key, sound.apart.mem_erase_iff.mpr ⟨fun equal => same (congrArg Prod.snd equal), there⟩⟩
  · exact sound.once
  · exact fun other member => sound.ended other (List.mem_of_mem_erase member)
  · exact sound.apart.erase item
  · intro other member
    by_cases same : other.2 = item.2
    · exact Or.inr (Or.inr (same ▸ answered))
    · rw [Function.update_of_ne same]
      exact sound.accounted other member
  · exact sound.path.append (.one (.leave _ _ item.1))
  · exact (moment_taken ..).trans sound.taken

theorem forget_queue (scheduler : Scheduler) (key other : String) :
    queueOf (scheduler.forget key).1 other = if other = key then [] else queueOf scheduler other := by
  simp only [Scheduler.forget, queueOf, lookup_deleteKey]
  split <;> rfl

theorem forget_sound (sound : Sound limits s claims) (key : String) :
    Sound limits (s.step limits (.forget key)) (forgets claims (s.scheduler.forget key).2) := by
  have rejected : ∀ n, n ∈ (s.scheduler.forget key).2 ↔ claims n = .waits key := fun n => queue_waits sound.counts
  have numbers : ((s.scheduler.forget key).2.map fun n => (n, Answer.forgotten)).map Prod.fst =
      (s.scheduler.forget key).2 := by simp [Function.comp_def]
  have answered : ∀ n, n ∈ (s.step limits (.forget key)).answered ↔ n ∈ s.answered ∨ claims n = .waits key := by
    intro n
    rw [← rejected]
    show n ∈ (s.answers ++ _).map Prod.fst ↔ _
    rw [answered_append, numbers]
    rfl
  have kept : ∀ n, claims n ≠ .waits key → forgets claims (s.scheduler.forget key).2 n = claims n := by
    intro n other
    exact if_neg fun member => other ((rejected n).mp member)
  have gone : ∀ n, claims n = .waits key → forgets claims (s.scheduler.forget key).2 n = .off := fun n waits =>
    if_pos ((rejected n).mpr waits)
  constructor
  · exact forget_counts sound.counts key
  · exact sound.capped
  · intro n other
    rw [answered]
    show _ ↔ (other, n) ∈ s.due ∨ (other, n) ∈ s.started ∧ _ ∨ (other, n) ∈ s.leaving
    by_cases waits : claims n = .waits key
    · have none := sound.holds n other
      rw [waits] at none
      rw [gone n waits]
      simp only [reduceCtorEq, false_iff, waits, or_true, not_true, and_false] at none ⊢
      tauto
    · rw [kept n waits, sound.holds]
      simp [waits]
  · exact sound.numbered
  · exact sound.bounded
  · intro other
    obtain ⟨front, split, sublist⟩ := sound.ordered other
    by_cases same : other = key
    · subst same
      refine ⟨front ++ queueOf s.scheduler other, ?_, sublist.trans (List.sublist_append_left ..)⟩
      show _ = _ ++ queueOf (s.scheduler.forget other).1 other
      rw [forget_queue, if_pos rfl, List.append_nil]
      exact split
    · refine ⟨front, ?_, sublist⟩
      show _ = _ ++ queueOf (s.scheduler.forget key).1 other
      rw [forget_queue, if_neg same]
      exact split
  · intro n member
    rcases (answered n).mp member with old | waits
    · obtain ⟨within, settled⟩ := sound.answered n old
      rw [kept n fun waits => (sound.waits_fresh waits).2 old]
      exact ⟨within, settled⟩
    · exact ⟨sound.bounded _ (sound.waits_submitted waits), Or.inl (gone n waits)⟩
  · refine once_append sound.once ?_ ?_
    · rw [numbers]
      cases found : s.scheduler.queues.lookup key with
      | none => simp [Scheduler.forget, found]
      | some queue => simpa [Scheduler.forget, found] using sound.counts.apart key queue found
    · intro n member
      rw [numbers] at member
      exact (sound.waits_fresh ((rejected n).mp member)).2
  · intro item member
    exact ⟨(sound.ended item member).1, (answered _).mpr (Or.inl (sound.ended item member).2)⟩
  · exact sound.apart
  · intro item member
    rw [answered]
    by_cases waits : claims item.2 = .waits key
    · exact Or.inr (Or.inr (Or.inr waits))
    · rw [kept _ waits]
      exact (sound.accounted item member).imp_right (Or.imp_right Or.inl)
  · exact sound.path.append (.one (.forget key))
  · exact (moment_taken ..).trans sound.taken

/-- Every event keeps what is sound. -/
theorem step_sound (capacity : 0 < limits.globalCap) (sound : Sound limits s claims) (event : Event) :
    ∃ claims, Sound limits (s.step limits event) claims := by
  cases event with
  | submit key =>
      rcases step_submit limits s key with pumped | ⟨same, refused⟩
      · rw [pumped]
        exact ⟨_, pump_sound capacity (push_sound sound key)⟩
      · rw [refused]
        exact ⟨_, refuse_sound sound same⟩
  | start => exact ⟨_, start_sound sound⟩
  | finish item thrown => exact ⟨_, finish_sound sound item thrown⟩
  | leave item =>
      by_cases member : item ∈ s.leaving
      · rw [step_leave member]
        exact ⟨_, pump_sound capacity (vacate_sound sound member)⟩
      · have same : s.step limits (.leave item) = s := if_neg member
        rw [same]
        exact ⟨_, sound⟩
  | forget key => exact ⟨_, forget_sound sound key⟩

theorem run_append (before after : List Event) :
    State.run limits (before ++ after) = after.foldl (State.step limits) (State.run limits before) := List.foldl_append ..

theorem run_sound (capacity : 0 < limits.globalCap) (events : List Event) :
    ∃ claims, Sound limits (State.run limits events) claims := by
  induction events using List.reverseRecOn with
  | nil => exact ⟨_, fresh_sound⟩
  | append_singleton before event ih =>
      obtain ⟨claims, sound⟩ := ih
      rw [run_append]
      exact step_sound capacity sound event

end Steps

/-! What a run keeps. -/
section Kept

variable {limits} {s : State} {claims : Nat → SlotClaim}

/-- Nothing waits when no slot is in use. -/
def Rested (scheduler : Scheduler) : Prop := ∀ key, queueOf scheduler key ≠ [] → 0 < scheduler.running

/-- Whoever waits while a slot is free has its share, and another waits. -/
def Busy (limits : Limits) (scheduler : Scheduler) : Prop :=
  scheduler.running < limits.globalCap → ∀ key, queueOf scheduler key ≠ [] →
    limits.perWorker ≤ scheduler.active key ∧ ∃ other, other ≠ key ∧ queueOf scheduler other ≠ []

theorem pump_rested (capacity : 0 < limits.globalCap) (sound : Sound limits s claims) :
    Rested (s.scheduler.pump limits).1 := by
  intro key waits
  cases found : (s.scheduler.pump limits).1.queues.lookup key with
  | none => simp [queueOf, found] at waits
  | some queue =>
      have some : queue ≠ [] := by simpa [queueOf, found] using waits
      exact (pump_slots limits capacity sound.counts).1.rests key queue found some

theorem pump_busy (sound : Sound limits s claims) : Busy limits (s.scheduler.pump limits).1 := by
  intro room key waits
  have path : Path limits s.scheduler (pumpMoments limits s.scheduler) (s.scheduler.pump limits).1 := pump_path
  have orderly := path.orderly sound.orderly
  cases found : (s.scheduler.pump limits).1.queues.lookup key with
  | none => simp [queueOf, found] at waits
  | some queue =>
      have some : queue ≠ [] := by simpa [queueOf, found] using waits
      rcases rounds_rests limits _ (Nat.lt_succ_self _) sound.counts with full | blocked
      · exact absurd room (not_lt.mpr full)
      · obtain ⟨share, others⟩ := (blocked key queue found).resolve_left some
        exact ⟨share, (waitingOthers_iff orderly key).mp others⟩

theorem step_rested (capacity : 0 < limits.globalCap) (sound : Sound limits s claims) (rested : Rested s.scheduler)
    (event : Event) : Rested (s.step limits event).scheduler := by
  cases event with
  | submit key =>
      rcases step_submit limits s key with pumped | ⟨same, refused⟩
      · rw [pumped]
        exact pump_rested capacity (push_sound sound key)
      · rw [refused]
        exact rested
  | start =>
      unfold State.step
      dsimp only
      split <;> exact rested
  | finish item thrown =>
      unfold State.step
      dsimp only
      split <;> exact rested
  | leave item =>
      by_cases member : item ∈ s.leaving
      · rw [step_leave member]
        exact pump_rested capacity (vacate_sound sound member)
      · have same : s.step limits (.leave item) = s := if_neg member
        rw [same]
        exact rested
  | forget key =>
      intro other waits
      show 0 < s.scheduler.running
      apply rested other
      intro none
      apply waits
      show queueOf (s.scheduler.forget key).1 other = []
      rw [forget_queue, none, ite_self]

theorem run_rested (capacity : 0 < limits.globalCap) (events : List Event) :
    Rested (State.run limits events).scheduler := by
  induction events using List.reverseRecOn with
  | nil => exact fun key waits => absurd rfl waits
  | append_singleton before event ih =>
      obtain ⟨claims, sound⟩ := run_sound capacity before
      rw [run_append]
      exact step_rested capacity sound ih event

/-- All that has a slot has a key. -/
theorem Sound.accounts (sound : Sound limits s claims) : Accounts limits s := by
  have keyed : ∀ n key, claims n = .holds key → key ∈ (s.submitted.map Prod.fst).toFinset := by
    intro n key holds
    have member : (key, n) ∈ s.submitted := by
      rcases (sound.holds n key).mp holds with due | ⟨started, -⟩ | leaving
      · exact sound.started_submitted (List.mem_append_right _ due)
      · exact sound.started_submitted (List.mem_append_left _ started)
      · exact sound.started_submitted (List.mem_append_left _ (sound.ended _ leaving).1)
    exact List.mem_toFinset.mpr (List.mem_map.mpr ⟨_, member, rfl⟩)
  refine ⟨?_, ?_, sound.capped⟩
  · rw [sound.counts.running, Nat.count_eq_card_filter_range]
    have each : ∀ key, s.scheduler.active key =
        ({n ∈ (Finset.range s.next).filter (fun n => (claims n).held = true) |
          claims n = .holds key} : Finset Nat).card := by
      intro key
      rw [sound.counts.active, Nat.count_eq_card_filter_range, Finset.filter_filter]
      congr 1
      ext n
      simp only [Finset.mem_filter, and_congr_right_iff]
      intro _
      exact ⟨fun holds => ⟨by rw [holds, held_holds], holds⟩, And.right⟩
    simp only [each]
    let keyOf := fun n => match claims n with | .holds key => key | _ => ""
    have count := Finset.card_eq_sum_card_fiberwise
      (s := (Finset.range s.next).filter fun n => (claims n).held = true) (f := keyOf)
      (t := (s.submitted.map Prod.fst).toFinset) ?_
    · rw [count]
      refine Finset.sum_congr rfl fun key _ => ?_
      congr 1
      refine Finset.filter_congr fun n member => ?_
      obtain ⟨other, holds⟩ := (held_iff _).mp (Finset.mem_filter.mp member).2
      simp [keyOf, holds]
    · intro n member
      obtain ⟨key, holds⟩ := (held_iff _).mp (Finset.mem_filter.mp member).2
      have same : keyOf n = key := by simp [keyOf, holds]
      rw [same]
      exact keyed n key holds
  · intro key absent
    rw [sound.counts.active, Nat.count_eq_card_filter_range, Finset.card_eq_zero, Finset.filter_eq_empty_iff]
    exact fun n _ holds => absent (keyed n key holds)

theorem Sound.inOrder (sound : Sound limits s claims) : InOrder s := by
  refine ⟨?_, sound.numbered, fun key => ?_⟩
  · refine List.Nodup.map_on (fun item here other there same => ?_) sound.starts_nodup
    have mine : (other.1, item.2) ∈ s.submitted := by
      rw [same]
      exact sound.started_submitted there
    exact Prod.ext (sound.same_key (sound.started_submitted here) mine) same
  · obtain ⟨gone, split, sublist⟩ := sound.ordered key
    exact split ▸ sublist.trans (List.sublist_append_left ..)

theorem Sound.settledOnce (sound : Sound limits s claims) (rested : Rested s.scheduler) : SettledOnce s := by
  refine ⟨sound.once, fun due leaving ended item member => ?_⟩
  have idle : ∀ n key, claims n ≠ .holds key := by
    intro n key holds
    rcases (sound.holds n key).mp holds with inDue | ⟨started, unanswered⟩ | inLeaving
    · simp [due] at inDue
    · exact unanswered (ended _ started)
    · simp [leaving] at inLeaving
  rcases sound.accounted item member with waits | started | answered
  · -- someone has a slot when something waits
    have running := rested item.1 (List.ne_nil_of_mem ((queue_waits sound.counts).mpr waits))
    rw [sound.counts.running] at running
    obtain ⟨n, isHeld⟩ := count_exists running
    obtain ⟨key, holds⟩ := (held_iff _).mp isHeld
    exact absurd holds (idle n key)
  · rcases List.mem_append.mp started with started | inDue
    · exact ended item started
    · simp [due] at inDue
  · exact answered

theorem Sound.forgets (sound : Sound limits s claims) : Forgets limits s := by
  intro key n
  have rejected : n ∈ (s.scheduler.forget key).2 ↔ claims n = .waits key := queue_waits sound.counts
  have member : (n, Answer.forgotten) ∈ (s.step limits (.forget key)).answers ↔
      (n, Answer.forgotten) ∈ s.answers ∨ claims n = .waits key := by
    rw [← rejected]
    show _ ∈ s.answers ++ _ ↔ _
    simp
  rw [member]
  constructor
  · rintro ⟨old | waits, unanswered⟩
    · exact absurd (List.mem_map.mpr ⟨_, old, rfl⟩) unanswered
    · exact ⟨sound.waits_submitted waits, sound.waits_fresh waits⟩
  · rintro ⟨submitted, unstarted, unanswered⟩
    rcases sound.accounted _ submitted with waits | started | answered
    · exact ⟨Or.inr waits, unanswered⟩
    · exact absurd started unstarted
    · exact absurd answered unanswered

theorem Sound.fair (sound : Sound limits s claims) : Fair limits s := by
  refine ⟨sound.taken, ?_⟩
  intro earlier m between m' later x y n n' split differs once again waits
  exact (split ▸ sound.path).fair fresh_orderly differs once again waits

end Kept

/-! When no slot is left free. -/
section Conservation

variable {limits} {s : State} {claims : Nat → SlotClaim}

theorem conserves_busy (busy : Busy limits s.scheduler) : Conserves limits s := fun _ => busy

/-- A `forget` that is timely leaves no slot free, and no other does. -/
theorem forget_conserves (conserves : Conserves limits s) (key : String) :
    Conserves limits (s.step limits (.forget key)) ↔ Timely limits s key := by
  constructor
  · intro after quiet room other differs waits
    have there : queueOf (s.scheduler.forget key).1 other ≠ [] := by rwa [forget_queue, if_neg differs]
    obtain ⟨-, third, apart, waits'⟩ := after quiet room other there
    have inQueue : queueOf (s.scheduler.forget key).1 third ≠ [] := waits'
    rw [forget_queue] at inQueue
    split at inQueue
    · exact absurd rfl inQueue
    · rename_i unlike
      exact ⟨third, unlike, apart, inQueue⟩
  · intro timely quiet room other waits
    have inQueue : queueOf (s.scheduler.forget key).1 other ≠ [] := waits
    rw [forget_queue] at inQueue
    split at inQueue
    · exact absurd rfl inQueue
    · rename_i differs
      obtain ⟨third, unlike, apart, waiting⟩ := timely quiet room other differs inQueue
      refine ⟨(conserves quiet room other inQueue).1, third, apart, ?_⟩
      show queueOf (s.scheduler.forget key).1 third ≠ []
      rwa [forget_queue, if_neg unlike]

/-- Every other event keeps the slots in use. -/
theorem step_conserves (sound : Sound limits s claims) (conserves : Conserves limits s) {event : Event}
    (timely : ∀ key, event = .forget key → Timely limits s key) : Conserves limits (s.step limits event) := by
  cases event with
  | submit key =>
      rcases step_submit limits s key with pumped | ⟨same, refused⟩
      · rw [pumped]
        exact conserves_busy (pump_busy (push_sound sound key))
      · rw [refused]
        exact conserves
  | start =>
      unfold State.step
      dsimp only
      split
      · exact conserves
      · exact conserves
  | finish item thrown =>
      unfold State.step
      dsimp only
      split
      · -- its `finally` is to come
        intro quiet
        simp at quiet
      · exact conserves
  | leave item =>
      by_cases member : item ∈ s.leaving
      · rw [step_leave member]
        exact conserves_busy (pump_busy (vacate_sound sound member))
      · have same : s.step limits (.leave item) = s := if_neg member
        rw [same]
        exact conserves
  | forget key => exact (forget_conserves conserves key).mpr (timely key rfl)

theorem fresh_conserves : Conserves limits State.fresh := fun _ _ _ waits => absurd rfl waits

/-- No slot is left free in a run if and only if each `forget` is timely. -/
theorem run_conserves_iff (capacity : 0 < limits.globalCap) (events : List Event) :
    (∀ before after, events = before ++ after → Conserves limits (State.run limits before)) ↔
      ∀ before key after, events = before ++ .forget key :: after → Timely limits (State.run limits before) key := by
  constructor
  · intro each before key after split
    have here := each before _ split
    have next := each (before ++ [.forget key]) after (by rw [split, List.append_assoc]; rfl)
    rw [run_append] at next
    exact (forget_conserves here key).mp next
  · intro timely before
    induction before using List.reverseRecOn with
    | nil => exact fun _ _ => fresh_conserves
    | append_singleton before event ih =>
        intro after split
        rw [List.append_assoc] at split
        obtain ⟨claims, sound⟩ := run_sound capacity before
        rw [run_append]
        refine step_conserves sound (ih _ split) ?_
        rintro key rfl
        exact timely before key after split

/-- In every run the accounts, the order and the answers are right and turns are fair, and no slot
is left free just if each `forget` is timely. -/
theorem scheduler_runs (limits : Limits) (capacity : 0 < limits.globalCap) (events : List Event) :
    (∀ before after, events = before ++ after →
      Accounts limits (State.run limits before) ∧ InOrder (State.run limits before) ∧
        SettledOnce (State.run limits before) ∧ Forgets limits (State.run limits before) ∧
          Fair limits (State.run limits before)) ∧
      ((∀ before after, events = before ++ after → Conserves limits (State.run limits before)) ↔
        ∀ before key after, events = before ++ .forget key :: after → Timely limits (State.run limits before) key) := by
  refine ⟨?_, run_conserves_iff capacity events⟩
  intro before after _
  obtain ⟨claims, sound⟩ := run_sound capacity before
  exact ⟨sound.accounts, sound.inOrder, sound.settledOnce (run_rested capacity before), sound.forgets, sound.fair⟩

def fiveSlots : Limits := ⟨5, 2, 10⟩

/-- Three tasks of `a` and two of `b` run, one of each waits, and one of `a` ends. -/
def contendedRun : List Event :=
  [.submit "a", .submit "a", .submit "a", .submit "b", .submit "b", .submit "a", .submit "b",
    .start, .start, .start, .start, .start, .finish ("a", 0) false, .leave ("a", 0)]

theorem contended_conserves : Conserves fiveSlots (State.run fiveSlots contendedRun) := by
  refine (scheduler_runs fiveSlots (by decide) contendedRun).2.mpr ?_ contendedRun [] (by simp)
  intro before key after split
  have member : Event.forget key ∈ contendedRun := split ▸ List.mem_append_right _ (List.mem_cons_self ..)
  simp [contendedRun] at member

/-- When `b` is forgotten then, a slot is free and the last task of `a` waits on, alone. -/
theorem forgotten_keeps_waiting :
    (State.run fiveSlots (contendedRun ++ [.forget "b"])).due = [] ∧
      ¬ Conserves fiveSlots (State.run fiveSlots (contendedRun ++ [.forget "b"])) := by
  refine ⟨by decide, fun conserves => ?_⟩
  have alone : (State.run fiveSlots (contendedRun ++ [.forget "b"])).scheduler.queues = [("a", [5])] := by decide
  have waits : queueOf (State.run fiveSlots (contendedRun ++ [.forget "b"])).scheduler "a" ≠ [] := by
    rw [queueOf, alone]
    decide
  obtain ⟨-, other, differs, waiting⟩ := conserves (by decide) (by decide) "a" waits
  have apart : (other == "a") = false := by simpa using differs
  rw [queueOf, alone] at waiting
  simp [List.lookup_cons, apart] at waiting

end Conservation

end Countinghouse.SchedulerRuns
