import Countinghouse.BrokerQueues

/-!
Runs of the lock of lib/fs-broker/rwlock.js. Requests are numbered as they arrive; `granted`
has them in the order in which their promises resolve, and `held` those that have not been
released since.
-/

namespace Countinghouse.LockOrder

open BrokerQueues

abbrev Request := Nat × Bool

/-- Readers among themselves, or one writer alone. -/
def Compatible (held : List Request) : Prop := (∀ entry ∈ held, entry.2 = false) ∨ ∃ n, held = [(n, true)]

structure State where
  lock : RwLock
  requests : List Request
  granted : List Request
  held : List Request

def start : State := ⟨.fresh, [], [], []⟩

inductive Event where
  | acquire (exclusive : Bool)
  | release (request : Request)

def step (s : State) : Event → State
  | .acquire exclusive =>
      let request := (s.requests.length, exclusive)
      let (lock, given) := s.lock.acquire request.1 exclusive
      ⟨lock, s.requests ++ [request], s.granted ++ given, s.held ++ given⟩
  | .release request =>
      let (lock, given) := s.lock.release request.2
      ⟨lock, s.requests, s.granted ++ given, s.held.erase request ++ given⟩

def run (s : State) (events : List Event) : State := events.foldl step s

/-- A release is of a request that has the lock. -/
def Matches (s : State) : Event → Prop
  | .acquire _ => True
  | .release request => request ∈ s.held

/-- Each step of the run matches. -/
def Matched : State → List Event → Prop
  | _, [] => True
  | s, e :: rest => Matches s e ∧ Matched (step s e) rest

/-! What the two fields of the lock say of its holders. -/
section Holders

structure Reflects (readers : Nat) (writer : Bool) (held : List Request) : Prop where
  readers : readers = held.countP fun entry => !entry.2
  writer : writer = held.any fun entry => entry.2
  compatible : Compatible held

variable {readers : Nat} {writer : Bool} {held queue : List Request} {n : Nat}

theorem none_reflected : Reflects 0 false [] := ⟨rfl, rfl, Or.inl (by simp)⟩

/-- The first of the queue can join the holders exactly when `pump` grants it. -/
theorem joins_iff (reflects : Reflects readers writer held) (entry : Request) :
    Compatible (held ++ [entry]) ↔ (writer || (entry.2 && 0 < readers)) = false := by
  rw [reflects.readers, reflects.writer]
  rcases reflects.compatible with all | ⟨m, only⟩
  · have noWriter : held.any (fun other => other.2) = false := by simpa using all
    have counted : held.countP (fun other => !other.2) = held.length := by simpa using all
    rw [noWriter, counted, Bool.false_or]
    cases held with
    | nil => cases entry with | mk m exclusive => cases exclusive <;> simp [Compatible]
    | cons other rest =>
        have reader := all other (List.mem_cons_self ..)
        cases exclusive : entry.2 with
        | false =>
            simp only [Bool.false_and, iff_true]
            left
            intro one member
            rcases List.mem_append.mp member with old | new
            · exact all one old
            · rw [List.mem_singleton.mp new]
              exact exclusive
        | true =>
            simp only [Compatible, List.length_cons, Nat.zero_lt_succ, decide_true, Bool.and_self, Bool.true_eq_false,
              iff_false, not_or, not_exists]
            constructor
            · intro none
              simpa [exclusive] using none entry (by simp)
            · intro m same
              have lengths := congrArg List.length same
              simp at lengths
  · subst only
    simp only [Compatible, List.any_cons, Bool.true_or, Bool.true_eq_false, iff_false, not_or, not_exists]
    constructor
    · intro none
      simpa using none (m, true) (by simp)
    · intro m' same
      have lengths := congrArg List.length same
      simp at lengths

theorem reader_joins (reflects : Reflects readers false held) : Reflects (readers + 1) false (held ++ [(n, false)]) where
  readers := by simp [reflects.readers, List.countP_append]
  writer := by simpa using reflects.writer
  compatible := (joins_iff reflects _).mpr (by simp)

theorem writer_joins (reflects : Reflects 0 false held) : Reflects 0 true (held ++ [(n, true)]) where
  readers := by simpa [List.countP_append] using reflects.readers
  writer := by simp
  compatible := (joins_iff reflects _).mpr (by simp)

theorem reader_leaves (reflects : Reflects readers writer held) (holds : (n, false) ∈ held) :
    Reflects (readers - 1) writer (held.erase (n, false)) where
  readers := by rw [reflects.readers, List.countP_erase]; simp [holds]
  writer := by
    rw [reflects.writer]
    rcases reflects.compatible with all | ⟨m, only⟩
    · have before : held.any (fun entry => entry.2) = false := by simpa using all
      have after : (held.erase (n, false)).any (fun entry => entry.2) = false :=
        List.any_eq_false.mpr fun entry member => by simp [all entry (List.mem_of_mem_erase member)]
      rw [before, after]
    · simp [only] at holds
  compatible := by
    rcases reflects.compatible with all | ⟨m, only⟩
    · exact Or.inl fun entry member => all entry (List.mem_of_mem_erase member)
    · simp [only] at holds

theorem writer_leaves (reflects : Reflects readers writer held) (holds : (n, true) ∈ held) :
    held.erase (n, true) = [] ∧ readers = 0 := by
  rcases reflects.compatible with all | ⟨m, only⟩
  · cases all _ holds
  · have same : n = m := by simpa [only] using holds
    have counted := reflects.readers
    rw [only] at counted
    exact ⟨by simp [only, same], by simpa using counted⟩

/-- `pump` gives the lock to the longest first part of the queue that can have it. -/
theorem pump_grants (reflects : Reflects readers writer held) (queue : List Request) :
    (RwLock.pump readers writer queue).2 ++ (RwLock.pump readers writer queue).1.queue = queue ∧
      Reflects (RwLock.pump readers writer queue).1.readers (RwLock.pump readers writer queue).1.writer
        (held ++ (RwLock.pump readers writer queue).2) ∧
      ∀ head ∈ (RwLock.pump readers writer queue).1.queue.head?,
        ¬ Compatible (held ++ (RwLock.pump readers writer queue).2 ++ [head]) := by
  induction queue generalizing readers writer held with
  | nil => simpa [RwLock.pump] using reflects
  | cons entry rest ih =>
      obtain ⟨n, exclusive⟩ := entry
      unfold RwLock.pump
      by_cases waits : (writer || (exclusive && decide (0 < readers))) = true
      · rw [if_pos waits]
        refine ⟨rfl, by simpa using reflects, fun head isHead => ?_⟩
        obtain rfl : (n, exclusive) = head := by simpa using isHead
        rw [List.append_nil, joins_iff reflects]
        simp [waits]
      · rw [if_neg waits]
        obtain ⟨free, alone⟩ : writer = false ∧ (exclusive = true → readers = 0) := by
          simpa [Nat.pos_iff_ne_zero] using waits
        subst free
        cases exclusive with
        | true =>
            obtain rfl := alone rfl
            have next : Reflects 0 true (held ++ [(n, true)]) := writer_joins reflects
            refine ⟨rfl, next, fun head _ => ?_⟩
            -- a writer has the lock, so nobody joins
            rw [if_pos rfl, joins_iff next]
            simp
        | false =>
            have next : Reflects (readers + 1) false (held ++ [(n, false)]) := reader_joins reflects
            obtain ⟨split, holders, conflicts⟩ := ih next
            rw [List.append_assoc] at holders
            simp only [Bool.false_eq_true, if_false, List.cons_append]
            refine ⟨by rw [split], holders, fun head isHead => ?_⟩
            simpa using conflicts head isHead

end Holders

/-! Runs. -/
section Runs

structure Sound (s : State) : Prop where
  reflects : Reflects s.lock.readers s.lock.writer s.held
  ordered : s.granted ++ s.lock.queue = s.requests
  conflicts : ∀ head ∈ s.lock.queue.head?, ¬ Compatible (s.held ++ [head])

variable {s : State}

theorem start_sound : Sound start := ⟨none_reflected, rfl, by simp [start, RwLock.fresh]⟩

theorem acquire_sound (sound : Sound s) (exclusive : Bool) : Sound (step s (.acquire exclusive)) := by
  obtain ⟨split, reflects, conflicts⟩ := pump_grants sound.reflects (s.lock.queue ++ [(s.requests.length, exclusive)])
  refine ⟨reflects, ?_, conflicts⟩
  simp only [step, RwLock.acquire]
  rw [List.append_assoc, split, ← List.append_assoc, sound.ordered]

theorem release_sound (sound : Sound s) {request : Request} (holds : request ∈ s.held) :
    Sound (step s (.release request)) := by
  obtain ⟨n, exclusive⟩ := request
  have after : ∃ readers writer, Reflects readers writer (s.held.erase (n, exclusive)) ∧
      s.lock.release exclusive = RwLock.pump readers writer s.lock.queue := by
    cases exclusive with
    | false => exact ⟨_, _, reader_leaves sound.reflects holds, rfl⟩
    | true =>
        obtain ⟨nobody, noReader⟩ := writer_leaves sound.reflects holds
        refine ⟨0, false, nobody ▸ none_reflected, ?_⟩
        rw [RwLock.release, if_pos rfl, noReader]
  obtain ⟨readers, writer, left, pumped⟩ := after
  obtain ⟨split, reflects, conflicts⟩ := pump_grants left s.lock.queue
  rw [← pumped] at split reflects conflicts
  refine ⟨reflects, ?_, conflicts⟩
  simp only [step]
  rw [List.append_assoc, split, sound.ordered]

theorem step_sound (sound : Sound s) {e : Event} (isMatch : Matches s e) : Sound (step s e) := by
  cases e with
  | acquire exclusive => exact acquire_sound sound exclusive
  | release request => exact release_sound sound isMatch

theorem run_sound (sound : Sound s) {events : List Event} (matched : Matched s events) : Sound (run s events) := by
  induction events generalizing s with
  | nil => exact sound
  | cons e rest ih => exact ih (step_sound sound matched.1) matched.2

/-- A writer has the lock alone, the requests that have been granted are those that arrived first, in that order, and
the first of those that wait cannot join the holders. -/
theorem lock_is_exclusive_and_fair {events : List Event} (matched : Matched start events) :
    (∀ n, (n, true) ∈ (run start events).held → (run start events).held = [(n, true)]) ∧
      (run start events).granted ++ (run start events).lock.queue = (run start events).requests ∧
      ∀ head ∈ (run start events).lock.queue.head?,
        (∃ n, (n, true) ∈ (run start events).held) ∨ (head.2 = true ∧ (run start events).held ≠ []) := by
  have sound := run_sound start_sound matched
  refine ⟨fun n holds => ?_, sound.ordered, fun head isHead => ?_⟩
  · rcases sound.reflects.compatible with all | ⟨m, only⟩
    · cases all _ holds
    · have same : n = m := by simpa [only] using holds
      rw [only, same]
  · by_contra fits
    obtain ⟨noWriter, free⟩ := not_or.mp fits
    apply sound.conflicts head isHead
    have readers : ∀ entry ∈ (run start events).held, entry.2 = false := by
      rintro ⟨n, exclusive⟩ member
      cases exclusive with
      | false => rfl
      | true => exact absurd ⟨n, member⟩ noWriter
    cases exclusive : head.2 with
    | false =>
        left
        intro entry member
        rcases List.mem_append.mp member with old | new
        · exact readers entry old
        · rw [List.mem_singleton.mp new]
          exact exclusive
    | true =>
        right
        have nobody : (run start events).held = [] := by
          by_contra some
          exact free ⟨exclusive, some⟩
        exact ⟨head.1, by rw [nobody, ← exclusive]; rfl⟩

/-- A reader, a writer behind it and a reader behind the writer; the first is released. -/
theorem writer_goes_before_the_next_reader :
    (run start [.acquire false, .acquire true, .acquire false, .release (0, false)]).held = [(1, true)] := by
  have matched : Matched start [.acquire false, .acquire true, .acquire false, .release (0, false)] := by
    refine ⟨trivial, trivial, trivial, ?_, trivial⟩
    exact List.mem_cons_self ..
  exact (lock_is_exclusive_and_fair matched).1 1 (by decide)

end Runs

end Countinghouse.LockOrder
