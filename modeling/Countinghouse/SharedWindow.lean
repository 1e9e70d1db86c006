import Mathlib.Data.Finset.Card
import Mathlib.Data.List.Sort

/-!
Lists that several owners share and of which only a window at the front is read. What an owner
finds of its own in the window is a first part of what it would find if it had the list for
itself; both are the same exactly when the others leave it room.
-/

namespace Countinghouse.SharedWindow

variable {α κ : Type}

/-! The window. -/
section Window

variable {own : α → Bool} {n : Nat} {list : List α}

theorem filter_take_drop (own : α → Bool) (n : Nat) (list : List α) :
    list.filter own = (list.take n).filter own ++ (list.drop n).filter own := by
  rw [← List.filter_append, List.take_append_drop]

theorem window_short (own : α → Bool) (n : Nat) (list : List α) : ((list.take n).filter own).length ≤ n :=
  (List.length_filter_le ..).trans (List.length_take_le ..)

theorem window_prefix (own : α → Bool) (n : Nat) (list : List α) :
    (list.take n).filter own <+: (list.filter own).take n := by
  rw [List.prefix_take_iff]
  exact ⟨⟨_, (filter_take_drop own n list).symm⟩, window_short own n list⟩

/-- The window is full of the owner's, or there is nothing of it behind. -/
def Roomy (own : α → Bool) (n : Nat) (list : List α) : Prop :=
  (∀ x ∈ list.take n, own x = true) ∨ ∀ x ∈ list.drop n, own x = false

theorem window_iff : (list.take n).filter own = (list.filter own).take n ↔ Roomy own n list := by
  have split := filter_take_drop own n list
  have whole : (list.filter own).take n = (list.take n).filter own ++
      ((list.drop n).filter own).take (n - ((list.take n).filter own).length) := by
    rw [split, List.take_append, List.take_of_length_le (window_short own n list)]
  rw [whole]
  constructor
  · intro same
    have none : ((list.drop n).filter own).take (n - ((list.take n).filter own).length) = [] := by
      simpa using same.symm
    rcases List.take_eq_nil_iff.mp none with full | none
    · by_cases long : n ≤ list.length
      · refine Or.inl fun x member => ?_
        have all : ((list.take n).filter own).length = (list.take n).length := by
          have short := window_short own n list
          rw [List.length_take]
          omega
        exact List.length_filter_eq_length_iff.mp all x member
      · refine Or.inr fun x member => ?_
        rw [List.drop_eq_nil_of_le (by omega)] at member
        cases member
    · refine Or.inr fun x member => ?_
      by_contra isOwn
      have there : x ∈ (list.drop n).filter own := List.mem_filter.mpr ⟨member, by simpa using isOwn⟩
      rw [none] at there
      cases there
  · rintro (all | none)
    · by_cases long : n ≤ list.length
      · have full : ((list.take n).filter own).length = n := by
          rw [List.length_filter_eq_length_iff.mpr all, List.length_take]
          omega
        simp [full]
      · simp [List.drop_eq_nil_of_le (show list.length ≤ n by omega)]
    · have nothing : (list.drop n).filter own = [] := List.filter_eq_nil_iff.mpr fun x member => by simp [none x member]
      simp [nothing]

theorem roomy_own (all : ∀ x ∈ list, own x = true) : Roomy own n list :=
  Or.inl fun x member => all x (List.mem_of_mem_take member)

/-- A list in order is in order without the others, whatever is put in. -/
theorem filter_orderedInsert (r : α → α → Prop) [DecidableRel r] [IsTrans α r] (own : α → Bool) (x : α)
    (sorted : list.Pairwise r) :
    (list.orderedInsert r x).filter own =
      if own x then (list.filter own).orderedInsert r x else list.filter own := by
  induction list with
  | nil => simp [List.filter_cons]
  | cons first rest ih =>
      obtain ⟨below, sorted⟩ := List.pairwise_cons.mp sorted
      rw [List.orderedInsert_cons]
      split
      · rename_i before
        by_cases isOwn : own x = true
        · rw [List.filter_cons, if_pos isOwn, if_pos isOwn]
          cases kept : (first :: rest).filter own with
          | nil => rfl
          | cons head tail =>
              have member : head ∈ first :: rest := by
                have there : head ∈ (first :: rest).filter own := kept ▸ List.mem_cons_self ..
                exact (List.mem_filter.mp there).1
              have after : r x head := by
                rcases List.mem_cons.mp member with rfl | later
                · exact before
                · exact IsTrans.trans _ _ _ before (below head later)
              rw [List.orderedInsert_cons_of_le r tail after]
        · rw [List.filter_cons, if_neg isOwn, if_neg isOwn]
      · rename_i behind
        rw [List.filter_cons, ih sorted]
        by_cases isOwn : own x = true
        · by_cases firstOwn : own first = true
          · simp [isOwn, firstOwn, behind]
          · simp [isOwn, firstOwn]
        · by_cases firstOwn : own first = true
          · simp [isOwn, firstOwn]
          · simp [isOwn, firstOwn]

end Window

/-! The first of each key, up to so many. -/
section Firsts

variable [DecidableEq κ] (key : α → κ) (cap : Nat)

def firsts : Nat → List κ → List α → List α
  | _, _, [] => []
  | count, seen, x :: rest =>
      if cap ≤ count then []
      else if key x ∈ seen then firsts count seen rest
      else x :: firsts (count + 1) (key x :: seen) rest

theorem firsts_append (count : Nat) (seen : List κ) (before behind : List α) :
    ∃ seen', (∀ k, k ∈ seen' ↔ k ∈ seen ∨ k ∈ (firsts key cap count seen before).map key) ∧
      firsts key cap count seen (before ++ behind) = firsts key cap count seen before ++
        firsts key cap (count + (firsts key cap count seen before).length) seen' behind := by
  induction before generalizing count seen with
  | nil => exact ⟨seen, by simp [firsts], by simp [firsts]⟩
  | cons x rest ih =>
      simp only [List.cons_append, firsts]
      split
      · rename_i full
        refine ⟨seen, by simp, ?_⟩
        cases behind with
        | nil => simp [firsts]
        | cons => simp [firsts, full]
      · split
        · exact ih count seen
        · obtain ⟨seen', isSeen, same⟩ := ih (count + 1) (key x :: seen)
          refine ⟨seen', fun k => ?_, ?_⟩
          · rw [isSeen]
            simp only [List.mem_cons, List.map_cons]
            tauto
          · rw [same, List.length_cons, List.cons_append, Nat.add_right_comm, Nat.add_assoc count]

theorem length_firsts (count : Nat) (seen : List κ) (list : List α) :
    (firsts key cap count seen list).length = min (cap - count) ((list.map key).toFinset \ seen.toFinset).card := by
  induction list generalizing count seen with
  | nil => simp [firsts]
  | cons x rest ih =>
      unfold firsts
      split
      · rename_i full
        simp [Nat.sub_eq_zero_of_le full]
      · rename_i room
        split
        · rename_i isSeen
          rw [ih, List.map_cons, List.toFinset_cons, Finset.insert_sdiff_of_mem _ (List.mem_toFinset.mpr isSeen)]
        · rename_i fresh
          have split : ((x :: rest).map key).toFinset \ seen.toFinset =
              insert (key x) ((rest.map key).toFinset \ (key x :: seen).toFinset) := by
            ext k
            simp only [List.map_cons, List.toFinset_cons, Finset.mem_sdiff, Finset.mem_insert, List.mem_toFinset, not_or]
            constructor
            · rintro ⟨same | member, unseen⟩
              · exact Or.inl same
              · by_cases same : k = key x
                · exact Or.inl same
                · exact Or.inr ⟨member, same, unseen⟩
            · rintro (same | ⟨member, -, unseen⟩)
              · exact ⟨Or.inl same, same ▸ fresh⟩
              · exact ⟨Or.inr member, unseen⟩
          rw [List.length_cons, ih, split, Finset.card_insert_of_notMem (by simp)]
          omega

variable {key cap}

theorem firsts_nil_iff (count : Nat) (seen : List κ) (list : List α) :
    firsts key cap count seen list = [] ↔ cap ≤ count ∨ ∀ x ∈ list, key x ∈ seen := by
  induction list with
  | nil => simp [firsts]
  | cons x rest ih =>
      unfold firsts
      split
      · rename_i full
        simp [full]
      · rename_i room
        split
        · rename_i isSeen
          rw [ih]
          simp [isSeen]
        · rename_i fresh
          simp [room, fresh]

theorem mem_firsts {count : Nat} {seen : List κ} {list : List α} {x : α} (member : x ∈ firsts key cap count seen list) :
    x ∈ list := by
  induction list generalizing count seen with
  | nil => cases member
  | cons first rest ih =>
      unfold firsts at member
      split at member
      · cases member
      · split at member
        · exact List.mem_cons_of_mem _ (ih member)
        · rcases List.mem_cons.mp member with rfl | later
          · exact List.mem_cons_self ..
          · exact List.mem_cons_of_mem _ (ih later)

theorem firsts_cover {count : Nat} {seen : List κ} {list : List α}
    (room : count + (firsts key cap count seen list).length < cap) {x : α} (member : x ∈ list) :
    key x ∈ seen ∨ key x ∈ (firsts key cap count seen list).map key := by
  induction list generalizing count seen with
  | nil => cases member
  | cons first rest ih =>
      unfold firsts at room ⊢
      split at room
      · rename_i full
        simp only [List.length_nil] at room
        omega
      · rename_i notFull
        rw [if_neg notFull]
        split at room
        · rename_i isSeen
          rw [if_pos isSeen]
          rcases List.mem_cons.mp member with rfl | later
          · exact Or.inl isSeen
          · exact ih room later
        · rename_i fresh
          rw [if_neg fresh]
          rcases List.mem_cons.mp member with rfl | later
          · exact Or.inr (by simp)
          · simp only [List.length_cons] at room
            have tail : count + 1 + (firsts key cap (count + 1) (key first :: seen) rest).length < cap := by omega
            rcases ih tail later with isSeen | isFirst
            · rcases List.mem_cons.mp isSeen with same | old
              · exact Or.inr (by simp [same])
              · exact Or.inl old
            · exact Or.inr (List.mem_cons_of_mem _ isFirst)

/-- A first part of a list has the same firsts as the whole if it has enough of them, or one of each key. -/
theorem firsts_prefix_iff {before list : List α} (isPrefix : before <+: list) :
    firsts key cap 0 [] before = firsts key cap 0 [] list ↔
      cap ≤ (before.map key).toFinset.card ∨ ∀ x ∈ list, ∃ y ∈ before, key y = key x := by
  obtain ⟨behind, rfl⟩ := isPrefix
  obtain ⟨seen, isSeen, whole⟩ := firsts_append key cap 0 [] before behind
  have size : (firsts key cap 0 [] before).length = min cap (before.map key).toFinset.card := by
    simpa using length_firsts key cap 0 [] before
  have nothing : firsts key cap 0 [] before = firsts key cap 0 [] (before ++ behind) ↔
      cap ≤ (firsts key cap 0 [] before).length ∨ ∀ x ∈ behind, key x ∈ seen := by
    rw [whole, List.self_eq_append_right, firsts_nil_iff, Nat.zero_add]
  rw [nothing, size]
  constructor
  · rintro (full | covered)
    · exact Or.inl (by omega)
    · refine Or.inr fun x member => ?_
      rcases List.mem_append.mp member with inside | later
      · exact ⟨x, inside, rfl⟩
      · obtain ⟨y, isFirst, same⟩ := List.mem_map.mp (((isSeen _).mp (covered x later)).resolve_left (by simp))
        exact ⟨y, mem_firsts isFirst, same⟩
  · rintro (full | covered)
    · exact Or.inl (by omega)
    · by_cases full : cap ≤ min cap (before.map key).toFinset.card
      · exact Or.inl full
      · refine Or.inr fun x later => (isSeen _).mpr (Or.inr ?_)
        obtain ⟨y, inside, same⟩ := covered x (List.mem_append_right _ later)
        rw [← same]
        exact (firsts_cover (by omega) inside).resolve_left (by simp)

end Firsts

end Countinghouse.SharedWindow
