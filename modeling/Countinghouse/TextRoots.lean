import Mathlib

/-!
Roots of a tree of names that are texts: a text lies in a root if it is the root, or goes on behind
it with a separator. A root is replaced by another in the front of a text, and of several roots the
longest holds it. Nothing here belongs to a particular program.
-/

namespace Countinghouse.TextRoots

variable {α : Type} {sep : α}

/-- Nothing, or what begins with the separator. -/
def Tail (sep : α) (rest : List α) : Prop := rest = [] ∨ ∃ more, rest = sep :: more

theorem tail_append {first second : List α} (firstTail : Tail sep first) (secondTail : Tail sep second) :
    Tail sep (first ++ second) := by
  rcases firstTail with rfl | ⟨more, rfl⟩
  · exact secondTail
  · exact .inr ⟨more ++ second, rfl⟩

/-- What a tail begins with is a tail, unless nothing is left of it. -/
theorem tail_front {first second : List α} (whole : Tail sep (first ++ second)) : Tail sep first := by
  cases first with
  | nil => exact .inl rfl
  | cons a more =>
      rcases whole with empty | ⟨rest, same⟩
      · simp at empty
      · obtain ⟨rfl, _⟩ := List.cons.inj same
        exact .inr ⟨more, rfl⟩

/-- `new` in the place of the `old` that the text begins with. -/
def rebase (old new text : List α) : List α := new ++ text.drop old.length

@[simp] theorem rebase_append (old new rest : List α) : rebase old new (old ++ rest) = new ++ rest := by
  simp [rebase]

variable [DecidableEq α]

def inside (sep : α) (text root : List α) : Bool := text == root || (root ++ [sep]).isPrefixOf text

theorem inside_iff (text root : List α) : inside sep text root = true ↔ ∃ rest, Tail sep rest ∧ text = root ++ rest := by
  simp only [inside, Bool.or_eq_true, beq_iff_eq, List.isPrefixOf_iff_prefix]
  constructor
  · rintro (rfl | ⟨more, rfl⟩)
    · exact ⟨[], .inl rfl, by simp⟩
    · exact ⟨sep :: more, .inr ⟨more, rfl⟩, by simp⟩
  · rintro ⟨rest, empty | ⟨more, rfl⟩, rfl⟩
    · exact .inl (by simp [empty])
    · exact .inr ⟨more, by simp⟩

theorem inside_append {root rest : List α} (tail : Tail sep rest) : inside sep (root ++ rest) root = true :=
  (inside_iff _ _).2 ⟨rest, tail, rfl⟩

theorem inside_refl (root : List α) : inside sep root root = true := by simp [inside]

theorem inside_trans {text middle root : List α} (inner : inside sep text middle = true)
    (outer : inside sep middle root = true) : inside sep text root = true := by
  obtain ⟨rest, restTail, rfl⟩ := (inside_iff _ _).1 inner
  obtain ⟨front, frontTail, rfl⟩ := (inside_iff _ _).1 outer
  rw [List.append_assoc]
  exact inside_append (tail_append frontTail restTail)

theorem inside_length {text root : List α} (within : inside sep text root = true) : root.length ≤ text.length := by
  obtain ⟨rest, _, rfl⟩ := (inside_iff _ _).1 within
  simp

theorem inside_antisymm {first second : List α} (there : inside sep first second = true)
    (back : inside sep second first = true) : first = second := by
  obtain ⟨rest, _, rfl⟩ := (inside_iff _ _).1 there
  have short := inside_length back
  rw [List.length_append] at short
  have none : rest = [] := List.length_eq_zero_iff.1 (by omega)
  simp [none]

/-- Of two roots of one text, one lies in the other. -/
theorem inside_total {text first second : List α} (inFirst : inside sep text first = true)
    (inSecond : inside sep text second = true) :
    inside sep first second = true ∨ inside sep second first = true := by
  obtain ⟨rest, restTail, rfl⟩ := (inside_iff _ _).1 inFirst
  obtain ⟨other, otherTail, same⟩ := (inside_iff _ _).1 inSecond
  rcases List.append_eq_append_iff.1 same with ⟨between, rfl, restIs⟩ | ⟨between, rfl, otherIs⟩
  · exact .inr (inside_append (tail_front (restIs ▸ restTail)))
  · exact .inl (inside_append (tail_front (otherIs ▸ otherTail)))

/-! Replacing a root. -/

theorem inside_rebase {text old : List α} (new : List α) (within : inside sep text old = true) :
    inside sep (rebase old new text) new = true := by
  obtain ⟨rest, tail, rfl⟩ := (inside_iff _ _).1 within
  rw [rebase_append]
  exact inside_append tail

theorem rebase_back {text old : List α} (new : List α) (within : inside sep text old = true) :
    rebase new old (rebase old new text) = text := by
  obtain ⟨rest, _, rfl⟩ := (inside_iff _ _).1 within
  rw [rebase_append, rebase_append]

theorem rebase_self {text root : List α} (within : inside sep text root = true) : rebase root root text = text := by
  obtain ⟨rest, _, rfl⟩ := (inside_iff _ _).1 within
  exact rebase_append root root rest

theorem rebase_eq_self {text old new : List α} (within : inside sep text old = true) :
    rebase old new text = text ↔ old = new := by
  constructor
  · intro same
    obtain ⟨rest, _, rfl⟩ := (inside_iff _ _).1 within
    rw [rebase_append, List.append_left_inj] at same
    exact same.symm
  · rintro rfl
    exact rebase_self within

/-! The longest root. -/
section Longest

variable {size : List α → Nat}

/-- Whether the text lies in the root and the root is longer than the one found so far. -/
def better (sep : α) (size : List α → Nat) (text : List α) (best : Option (List α)) (root : List α) : Option (List α) :=
  if inside sep text root && best.all (size · < size root) then some root else best

def longest (sep : α) (size : List α → Nat) (roots : List (List α)) (text : List α) : Option (List α) :=
  roots.foldl (better sep size text) none

/-- A root that lies in all the roots of a text. -/
def Deepest (sep : α) (roots : List (List α)) (text root : List α) : Prop :=
  root ∈ roots ∧ inside sep text root = true ∧
    ∀ other ∈ roots, inside sep text other = true → inside sep root other = true

theorem deepest_unique {roots : List (List α)} {text first second : List α} (one : Deepest sep roots text first)
    (another : Deepest sep roots text second) : first = second :=
  inside_antisymm (one.2.2 second another.1 another.2.1) (another.2.2 first one.1 one.2.1)

/-- Of two roots of one text the longer lies in the other. -/
theorem inside_of_longer (grows : ∀ root rest, rest ≠ [] → size root < size (root ++ rest)) {text first second : List α}
    (inFirst : inside sep text first = true) (inSecond : inside sep text second = true) :
    inside sep second first = true ∨ (size second < size first ∧ inside sep first second = true) := by
  rcases inside_total inFirst inSecond with deeper | deeper
  · by_cases same : first = second
    · exact .inl (same ▸ inside_refl first)
    · refine .inr ⟨?_, deeper⟩
      obtain ⟨rest, _, rfl⟩ := (inside_iff _ _).1 deeper
      exact grows second rest (by rintro rfl; exact same (by simp))
  · exact .inl deeper

/-- What the search has after some roots. -/
theorem longest_spec (grows : ∀ root rest, rest ≠ [] → size root < size (root ++ rest)) (roots : List (List α))
    (text : List α) :
    match longest sep size roots text with
    | some root => Deepest sep roots text root
    | none => ∀ root ∈ roots, inside sep text root = false := by
  induction roots using List.reverseRecOn with
  | nil => simp [longest]
  | append_singleton before root ih =>
      have step : longest sep size (before ++ [root]) text = better sep size text (longest sep size before text) root := by
        simp [longest]
      rw [step, better]
      cases within : inside sep text root with
      | false =>
          cases found : longest sep size before text with
          | none =>
              rw [found] at ih
              intro other member
              rcases List.mem_append.1 member with earlier | last
              · exact ih other earlier
              · rw [List.mem_singleton.1 last]
                exact within
          | some best =>
              rw [found] at ih
              refine ⟨by simp [ih.1], ih.2.1, fun other member inOther => ?_⟩
              rcases List.mem_append.1 member with earlier | last
              · exact ih.2.2 other earlier inOther
              · rw [List.mem_singleton.1 last, within] at inOther
                simp at inOther
      | true =>
          cases found : longest sep size before text with
          | none =>
              rw [found] at ih
              refine ⟨by simp, within, fun other member inOther => ?_⟩
              rcases List.mem_append.1 member with earlier | last
              · exact absurd inOther (by simp [ih other earlier])
              · rw [List.mem_singleton.1 last]
                exact inside_refl root
          | some best =>
              rw [found] at ih
              by_cases longer : size best < size root
              · simp only [Option.all_some, longer, decide_true, Bool.and_self, if_true]
                refine ⟨by simp, within, fun other member inOther => ?_⟩
                rcases List.mem_append.1 member with earlier | last
                · refine inside_trans ?_ (ih.2.2 other earlier inOther)
                  rcases inside_of_longer grows ih.2.1 within with deeper | ⟨shorter, _⟩
                  · exact deeper
                  · omega
                · rw [List.mem_singleton.1 last]
                  exact inside_refl root
              · simp only [Option.all_some, longer, decide_false, Bool.and_false, Bool.false_eq_true, if_false]
                refine ⟨by simp [ih.1], ih.2.1, fun other member inOther => ?_⟩
                rcases List.mem_append.1 member with earlier | last
                · exact ih.2.2 other earlier inOther
                · rw [List.mem_singleton.1 last]
                  rcases inside_of_longer grows within ih.2.1 with deeper | ⟨shorter, _⟩
                  · exact deeper
                  · exact absurd shorter longer

theorem longest_iff (grows : ∀ root rest, rest ≠ [] → size root < size (root ++ rest)) (roots : List (List α))
    (text root : List α) : longest sep size roots text = some root ↔ Deepest sep roots text root := by
  have spec := @longest_spec α sep _ size grows roots text
  constructor
  · intro found
    rwa [found] at spec
  · intro deepest
    cases found : longest sep size roots text with
    | none =>
        rw [found] at spec
        exact absurd deepest.2.1 (by simp [spec root deepest.1])
    | some other =>
        rw [found] at spec
        exact congrArg some (deepest_unique spec deepest)

end Longest

end Countinghouse.TextRoots
