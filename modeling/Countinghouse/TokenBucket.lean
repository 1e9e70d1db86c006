import Mathlib.Algebra.Order.Field.Basic
import Mathlib.Tactic.Linarith
import Mathlib.Tactic.Ring

/-!
Token buckets. A bucket holds up to `capacity` tokens and gains `rate` of them in a unit of
time; whoever comes takes one, or is turned away when there is less than one. Nothing here
belongs to a particular program.
-/

namespace Countinghouse.TokenBucket

structure Bucket (R : Type) where
  level : R
  time : R

section Taking

variable {R : Type} [Field R] [LinearOrder R] (capacity rate : R)

def Bucket.filled (b : Bucket R) (now : R) : R := min capacity (b.level + (now - b.time) * rate)

/-- Whether there is a token, and the bucket after that. -/
def Bucket.take (b : Bucket R) (now : R) : Bool × Bucket R :=
  if b.filled capacity rate now < 1 then (false, ⟨b.filled capacity rate now, now⟩)
  else (true, ⟨b.filled capacity rate now - 1, now⟩)

/-- The times at which a token is taken. -/
def Bucket.admitted (b : Bucket R) : List R → List R
  | [] => []
  | now :: rest =>
      let (admits, next) := b.take capacity rate now
      if admits then now :: next.admitted rest else next.admitted rest

/-- For each of those who come, whether there is a token. -/
def Bucket.verdicts (b : Bucket R) : List R → List Bool
  | [] => []
  | now :: rest => (b.take capacity rate now).1 :: (b.take capacity rate now).2.verdicts rest

def Within (first last time : R) : Prop := first ≤ time ∧ time ≤ last

instance (first last : R) : DecidablePred (Within first last) := fun _ => inferInstanceAs (Decidable (_ ∧ _))

variable {capacity rate} {b : Bucket R} {first last now : R} {times : List R}

theorem take_time : (b.take capacity rate now).2.time = now := by
  unfold Bucket.take
  split <;> rfl

/-- A token taken is one less in the bucket. -/
theorem take_level (b : Bucket R) (capacity rate now : R) :
    (b.take capacity rate now).2.level + (if (b.take capacity rate now).1 then 1 else 0) = b.filled capacity rate now := by
  unfold Bucket.take
  split <;> simp

theorem admitted_sublist : (b.admitted capacity rate times).Sublist times := by
  induction times generalizing b with
  | nil => exact List.Sublist.slnil
  | cons now rest ih =>
      unfold Bucket.admitted
      dsimp only
      split
      · exact ih.cons_cons now
      · exact ih.cons now

theorem count_cons (now : R) (rest : List R) :
    ((b.admitted capacity rate (now :: rest)).countP (Within first last ·) : R) =
      (((b.take capacity rate now).2.admitted capacity rate rest).countP (Within first last ·) : R) +
        if (b.take capacity rate now).1 ∧ Within first last now then 1 else 0 := by
  rw [Bucket.admitted]
  by_cases admits : (b.take capacity rate now).1 = true
  · by_cases inside : Within first last now
    · simp [admits, inside]
    · simp [admits, inside]
  · simp [admits]

/-- Nothing is within the window once its end has passed. -/
theorem count_after (past : last < now) (ordered : (now :: times).Pairwise (· ≤ ·)) :
    (b.admitted capacity rate (now :: times)).countP (Within first last ·) = 0 := by
  rw [List.countP_eq_zero]
  intro time member
  have later : now ≤ time := by
    rcases List.mem_cons.mp (admitted_sublist.subset member) with same | there
    · exact same.ge
    · exact (List.pairwise_cons.mp ordered).1 time there
  have outside : ¬ Within first last time := fun inside => absurd inside.2 (not_le.mpr (lt_of_lt_of_le past later))
  simpa using outside

end Taking

/-! How many tokens are taken. -/
section Windows

variable {R : Type} [Field R] [LinearOrder R] [IsStrictOrderedRing R]
  {capacity rate : R} {b : Bucket R} {first last now : R} {times : List R}

theorem filled_nonneg (room : 0 ≤ capacity) (gains : 0 ≤ rate) (level : 0 ≤ b.level) (later : b.time ≤ now) :
    0 ≤ b.filled capacity rate now :=
  le_min room (add_nonneg level (mul_nonneg (sub_nonneg.mpr later) gains))

theorem take_nonneg (filled : 0 ≤ b.filled capacity rate now) : 0 ≤ (b.take capacity rate now).2.level := by
  unfold Bucket.take
  split
  · exact filled
  · rename_i enough
    exact sub_nonneg.mpr (not_lt.mp enough)

/-- From a bucket no older than the window's end: what it holds and what it gains until then. -/
theorem count_from (room : 0 ≤ capacity) (gains : 0 ≤ rate) (level : 0 ≤ b.level) (started : b.time ≤ last)
    (ordered : (b.time :: times).Pairwise (· ≤ ·)) :
    ((b.admitted capacity rate times).countP (Within first last ·) : R) ≤ b.level + (last - b.time) * rate := by
  induction times generalizing b with
  | nil => simpa [Bucket.admitted] using add_nonneg level (mul_nonneg (sub_nonneg.mpr started) gains)
  | cons now rest ih =>
      obtain ⟨later, tail⟩ := List.pairwise_cons.mp ordered
      have since : b.time ≤ now := later now (List.mem_cons_self ..)
      by_cases past : last < now
      · rw [count_after past tail, Nat.cast_zero]
        exact add_nonneg level (mul_nonneg (sub_nonneg.mpr started) gains)
      · have nonneg := filled_nonneg room gains level since
        have count := ih (b := (b.take capacity rate now).2) (take_nonneg nonneg)
          (take_time.trans_le (not_lt.mp past)) (by rw [take_time]; exact tail)
        have least : b.filled capacity rate now ≤ b.level + (now - b.time) * rate := min_le_right _ _
        have taken : (if (b.take capacity rate now).1 ∧ Within first last now then (1 : R) else 0) ≤
            if (b.take capacity rate now).1 then 1 else 0 := by
          by_cases admits : (b.take capacity rate now).1 = true
          · rw [if_pos admits]
            split <;> norm_num
          · simp [admits]
        rw [take_time] at count
        have balance := take_level b capacity rate now
        rw [count_cons]
        linarith

/-- No window sees more than a full bucket and what is gained in it. -/
theorem admitted_in_window (room : 0 ≤ capacity) (gains : 0 ≤ rate) (level : 0 ≤ b.level) (interval : first ≤ last)
    (ordered : (b.time :: times).Pairwise (· ≤ ·)) :
    ((b.admitted capacity rate times).countP (Within first last ·) : R) ≤ capacity + (last - first) * rate := by
  induction times generalizing b with
  | nil => simpa [Bucket.admitted] using add_nonneg room (mul_nonneg (sub_nonneg.mpr interval) gains)
  | cons now rest ih =>
      obtain ⟨later, tail⟩ := List.pairwise_cons.mp ordered
      have since : b.time ≤ now := later now (List.mem_cons_self ..)
      have nonneg := filled_nonneg room gains level since
      have next : ((b.take capacity rate now).2.time :: rest).Pairwise (· ≤ ·) := by rw [take_time]; exact tail
      by_cases before : now < first
      · have outside : ¬ Within first last now := fun inside => absurd inside.1 (not_le.mpr before)
        rw [count_cons, if_neg (fun both => outside both.2), add_zero]
        exact ih (take_nonneg nonneg) next
      · by_cases past : last < now
        · rw [count_after past tail, Nat.cast_zero]
          exact add_nonneg room (mul_nonneg (sub_nonneg.mpr interval) gains)
        · -- the first in the window finds at most a full bucket
          have inside : Within first last now := ⟨not_lt.mp before, not_lt.mp past⟩
          have started : (b.take capacity rate now).2.time ≤ last := take_time.trans_le inside.2
          have count : (((b.take capacity rate now).2.admitted capacity rate rest).countP (Within first last ·) : R) ≤ _ :=
            count_from room gains (take_nonneg nonneg) started next
          have full : b.filled capacity rate now ≤ capacity := min_le_left _ _
          have balance := take_level b capacity rate now
          have shorter : (last - now) * rate ≤ (last - first) * rate :=
            mul_le_mul_of_nonneg_right (by linarith [inside.1]) gains
          rw [take_time] at count
          rw [count_cons]
          simp only [inside, and_true]
          linarith

end Windows

end Countinghouse.TokenBucket
