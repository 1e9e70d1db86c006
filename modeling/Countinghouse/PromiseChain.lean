import Mathlib.Logic.Function.Basic
import Mathlib.Tactic.Common

/-!
A lock made of promises: each job waits for the one that was last when it came, and the
last one is forgotten once it is done. Jobs are numbered in the order they come. Nothing
here belongs to a particular program.
-/

namespace Countinghouse.PromiseChain

inductive Turn where
  | waiting | running | done
  deriving DecidableEq

/-- The jobs so far, whom each waits for, and the last of them. -/
structure Links where
  next : Nat
  prev : Nat → Option Nat
  tail : Option Nat

def Links.empty : Links := ⟨0, fun _ => none, none⟩

/-- One more job, behind the last. -/
def Links.append (links : Links) : Links :=
  ⟨links.next + 1, Function.update links.prev links.next links.tail, some links.next⟩

/-- The last job is forgotten. -/
def Links.forget (links : Links) : Links := { links with tail := none }

section

variable (links : Links) (turn : Nat → Turn)

/-- Whom the job waits for is done. -/
def Links.ready (n : Nat) : Bool :=
  n < links.next && turn n = .waiting &&
    match links.prev n with
    | none => true
    | some before => turn before = .done

/-- Every job before the n-th is done. -/
def DoneBefore (n : Nat) : Prop := ∀ m < n, turn m = .done

structure Ordered : Prop where
  tail : ∀ last, links.tail = some last → last + 1 = links.next
  all : links.tail = none → DoneBefore turn links.next
  prev : ∀ n < links.next, ∀ before, links.prev n = some before → before + 1 = n
  first : ∀ n < links.next, links.prev n = none → DoneBefore turn n
  turn : ∀ n, turn n ≠ .waiting → n < links.next ∧ DoneBefore turn n

end

variable {links : Links} {turn : Nat → Turn} {n : Nat}

theorem ordered_empty (waiting : ∀ n, turn n = .waiting) : Ordered Links.empty turn := by
  constructor
  · intro last isLast
    cases isLast
  · exact fun _ m bound => absurd bound (Nat.not_lt_zero m)
  · exact fun n bound => absurd bound (Nat.not_lt_zero n)
  · exact fun n bound => absurd bound (Nat.not_lt_zero n)
  · exact fun n differs => absurd (waiting n) differs

/-- At most one job runs. -/
theorem Ordered.alone (ordered : Ordered links turn) {m : Nat} (first : turn n = .running)
    (second : turn m = .running) : n = m := by
  rcases Nat.lt_trichotomy n m with less | same | more
  · have done := (ordered.turn m (by simp [second])).2 n less
    simp [first] at done
  · exact same
  · have done := (ordered.turn n (by simp [first])).2 m more
    simp [second] at done

theorem Ordered.fresh (ordered : Ordered links turn) : turn links.next = .waiting := by
  by_contra differs
  exact absurd (ordered.turn links.next differs).1 (Nat.lt_irrefl _)

theorem Ordered.append (ordered : Ordered links turn) : Ordered links.append turn := by
  have old {m : Nat} (bound : m < links.append.next) (differs : m ≠ links.next) : m < links.next := by
    simp only [Links.append] at bound
    omega
  constructor
  · rintro last ⟨⟩
    rfl
  · intro isNone
    cases isNone
  · intro m bound before isBefore
    by_cases same : m = links.next
    · subst same
      exact ordered.tail before (by simpa [Links.append] using isBefore)
    · exact ordered.prev m (old bound same) before (by simpa [Links.append, same] using isBefore)
  · intro m bound isNone
    by_cases same : m = links.next
    · subst same
      exact ordered.all (by simpa [Links.append] using isNone)
    · exact ordered.first m (old bound same) (by simpa [Links.append, same] using isNone)
  · intro m differs
    have known := ordered.turn m differs
    exact ⟨Nat.lt_succ_of_lt known.1, known.2⟩

/-- A job whose turn it is has every other job before it done. -/
theorem Ordered.cleared (ordered : Ordered links turn) (ready : links.ready turn n = true) :
    n < links.next ∧ DoneBefore turn n := by
  simp only [Links.ready, Bool.and_eq_true, decide_eq_true_eq] at ready
  obtain ⟨⟨bound, -⟩, reached⟩ := ready
  refine ⟨bound, ?_⟩
  cases isPrev : links.prev n with
  | none => exact ordered.first n bound isPrev
  | some before =>
      rw [isPrev] at reached
      have isNext := ordered.prev n bound before isPrev
      have isDone : turn before = .done := by simpa using reached
      intro m less
      rcases Nat.lt_or_ge m before with earlier | later
      · exact (ordered.turn before (by simp [isDone])).2 m earlier
      · have same : m = before := by omega
        exact same ▸ isDone

/-- What was done stays done. -/
theorem DoneBefore.update {m : Nat} {new : Turn} (done : DoneBefore turn m) (notDone : turn n ≠ .done) :
    DoneBefore (Function.update turn n new) m := by
  intro k less
  have differs : k ≠ n := by
    rintro rfl
    exact notDone (done k less)
  simpa [differs] using done k less

theorem Ordered.update {new : Turn} (ordered : Ordered links turn) (bound : n < links.next)
    (before : DoneBefore turn n) (notDone : turn n ≠ .done) : Ordered links (Function.update turn n new) := by
  constructor
  · exact ordered.tail
  · exact fun isNone => (ordered.all isNone).update notDone
  · exact ordered.prev
  · exact fun m less isNone => (ordered.first m less isNone).update notDone
  · intro m differs
    by_cases same : m = n
    · subst same
      exact ⟨bound, before.update notDone⟩
    · have known := ordered.turn m (by simpa [same] using differs)
      exact ⟨known.1, known.2.update notDone⟩

/-- A job whose turn it is goes on. -/
theorem Ordered.enter {new : Turn} (ordered : Ordered links turn) (ready : links.ready turn n = true) :
    Ordered links (Function.update turn n new) := by
  obtain ⟨bound, before⟩ := ordered.cleared ready
  have waiting : turn n = .waiting := by
    simp only [Links.ready, Bool.and_eq_true, decide_eq_true_eq] at ready
    exact ready.1.2
  exact ordered.update bound before (by simp [waiting])

theorem Ordered.leave {new : Turn} (ordered : Ordered links turn) (running : turn n = .running) :
    Ordered links (Function.update turn n new) := by
  have known := ordered.turn n (by simp [running])
  exact ordered.update known.1 known.2 (by simp [running])

theorem Ordered.forget {last : Nat} (ordered : Ordered links turn) (isLast : links.tail = some last)
    (isDone : turn last = .done) : Ordered links.forget turn := by
  constructor
  · intro other isOther
    cases isOther
  · intro _ m bound
    have isNext := ordered.tail last isLast
    have bound : m < last + 1 := isNext ▸ bound
    rcases Nat.lt_or_ge m last with earlier | later
    · exact (ordered.turn last (by simp [isDone])).2 m earlier
    · have same : m = last := by omega
      exact same ▸ isDone
  · exact ordered.prev
  · exact ordered.first
  · exact ordered.turn

end Countinghouse.PromiseChain
