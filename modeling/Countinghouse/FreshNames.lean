import Mathlib.Data.List.Nodup
import Mathlib.Data.List.Perm.Subperm

/-!
Names given out in order. Each item asks for a name of its own series and gets the first one
of it that is not in use. Two items whose series have no name in common do not see each
other, so a list in which only such items have changed places gives the same names.
-/

namespace Countinghouse.FreshNames

universe u v w
variable {Name : Type u} {Series : Type v} {Item : Type w} [DecidableEq Name]

/-- The names of a series are distinct. -/
def Distinct (candidate : Series → Nat → Name) : Prop := ∀ series, Function.Injective (candidate series)

/-! The first free name. -/
section First

variable (candidate : Series → Nat → Name)

/-- Among one more name than there are names in use. -/
def firstFree (used : List Name) (series : Series) : Name :=
  (((List.range (used.length + 1)).map (candidate series)).find? fun name => name ∉ used).getD (candidate series 0)

/-- This place of the series is free, and none before it. -/
def FreeAt (used : List Name) (series : Series) (place : Nat) : Prop :=
  candidate series place ∉ used ∧ ∀ earlier < place, candidate series earlier ∈ used

variable {candidate}

omit [DecidableEq Name] in
theorem free_at_unique {used : List Name} {series : Series} {place other : Nat}
    (free : FreeAt candidate used series place) (same : FreeAt candidate used series other) : place = other := by
  rcases Nat.lt_trichotomy place other with before | equal | after
  · exact absurd (same.2 place before) free.1
  · exact equal
  · exact absurd (free.2 other after) same.1

/-- More names than are in use cannot all be in use. -/
theorem some_free (distinct : Distinct candidate) (used : List Name) (series : Series) :
    ∃ place, place < used.length + 1 ∧ candidate series place ∉ used := by
  by_contra none
  have all : ∀ place, place < used.length + 1 → candidate series place ∈ used := by
    intro place within
    by_contra free
    exact none ⟨place, within, free⟩
  have fresh : ((List.range (used.length + 1)).map (candidate series)).Nodup :=
    List.nodup_range.map (distinct series)
  have inUse : ((List.range (used.length + 1)).map (candidate series)) ⊆ used := by
    intro name member
    obtain ⟨place, within, rfl⟩ := List.mem_map.mp member
    exact all place (List.mem_range.mp within)
  have := (fresh.subperm inUse).length_le
  simp only [List.length_map, List.length_range] at this
  omega

theorem free_at_exists (distinct : Distinct candidate) (used : List Name) (series : Series) :
    ∃ place, place < used.length + 1 ∧ FreeAt candidate used series place := by
  obtain ⟨bound, within, free⟩ := some_free distinct used series
  induction bound using Nat.strongRecOn with
  | _ bound ih =>
      by_cases earlier : ∃ place < bound, candidate series place ∉ used
      · obtain ⟨place, before, isFree⟩ := earlier
        exact ih place before (by omega) isFree
      · refine ⟨bound, within, free, ?_⟩
        intro place before
        by_contra isFree
        exact earlier ⟨place, before, isFree⟩

theorem first_free_at {used : List Name} {series : Series} {place : Nat} (within : place < used.length + 1)
    (free : FreeAt candidate used series place) : firstFree candidate used series = candidate series place := by
  obtain ⟨rest, split⟩ : ∃ rest, List.range (used.length + 1) = List.range place ++ place :: rest := by
    refine ⟨List.range' (place + 1) (used.length - place), ?_⟩
    rw [List.range_eq_range', List.range_eq_range', show used.length + 1 = place + (1 + (used.length - place)) by omega,
      ← List.range'_append_1, Nat.zero_add, Nat.add_comm 1, List.range'_succ]
  have skipped : ((List.range place).map (candidate series)).find? (fun name => name ∉ used) = none := by
    rw [List.find?_eq_none]
    intro name member
    obtain ⟨earlier, before, rfl⟩ := List.mem_map.mp member
    simpa using free.2 earlier (List.mem_range.mp before)
  simp only [firstFree, split, List.map_append, List.map_cons, List.find?_append, skipped, Option.none_or]
  rw [List.find?_cons_of_pos (by simpa using free.1)]
  rfl

theorem first_free_spec (distinct : Distinct candidate) (used : List Name) (series : Series) :
    ∃ place, firstFree candidate used series = candidate series place ∧ FreeAt candidate used series place := by
  obtain ⟨place, within, free⟩ := free_at_exists distinct used series
  exact ⟨place, first_free_at within free, free⟩

theorem first_free_eq (distinct : Distinct candidate) {used : List Name} {series : Series} {place : Nat}
    (free : FreeAt candidate used series place) : firstFree candidate used series = candidate series place := by
  obtain ⟨other, isFirst, same⟩ := first_free_spec distinct used series
  rw [isFirst, free_at_unique same free]

theorem first_free_not_used (distinct : Distinct candidate) (used : List Name) (series : Series) :
    firstFree candidate used series ∉ used := by
  obtain ⟨place, isFirst, free⟩ := first_free_spec distinct used series
  rw [isFirst]
  exact free.1

/-- Only the names of the series that are in use matter. -/
theorem first_free_congr (distinct : Distinct candidate) {used other : List Name} {series : Series}
    (agree : ∀ place, candidate series place ∈ used ↔ candidate series place ∈ other) :
    firstFree candidate used series = firstFree candidate other series := by
  obtain ⟨place, isFirst, free⟩ := first_free_spec distinct used series
  have same : FreeAt candidate other series place := by
    constructor
    · rw [← agree place]
      exact free.1
    · intro earlier before
      rw [← agree earlier]
      exact free.2 earlier before
  rw [isFirst, first_free_eq distinct same]

end First

/-! Names for a list of items. -/
section Lists

variable (candidate : Series → Nat → Name)

def assign (used : List Name) : List (Item × Series) → List (Name × Item)
  | [] => []
  | (item, series) :: rest =>
      (firstFree candidate used series, item) :: assign (firstFree candidate used series :: used) rest

/-- Two series have a name in common. -/
def Compete (series other : Series) : Prop := ∃ place position, candidate series place = candidate other position

/-- Items that compete keep their order. -/
inductive Shuffled : List (Item × Series) → List (Item × Series) → Prop where
  | refl (items : List (Item × Series)) : Shuffled items items
  | cons (item : Item × Series) {before after : List (Item × Series)} (rest : Shuffled before after) :
      Shuffled (item :: before) (item :: after)
  | swap (first second : Item × Series) (rest : List (Item × Series)) (apart : ¬ Compete candidate first.2 second.2) :
      Shuffled (first :: second :: rest) (second :: first :: rest)
  | trans (middle : List (Item × Series)) {before after : List (Item × Series)} (first : Shuffled before middle)
      (second : Shuffled middle after) : Shuffled before after

variable {candidate}

theorem assign_congr (distinct : Distinct candidate) (items : List (Item × Series)) {used other : List Name}
    (agree : ∀ name, name ∈ used ↔ name ∈ other) : assign candidate used items = assign candidate other items := by
  induction items generalizing used other with
  | nil => rfl
  | cons item rest ih =>
      have same : firstFree candidate used item.2 = firstFree candidate other item.2 :=
        first_free_congr distinct fun place => agree _
      simp only [assign, same]
      rw [ih]
      intro name
      simp [agree name]

/-- An item that does not compete gets the same name after another one has got its own. -/
theorem first_free_apart (distinct : Distinct candidate) (used : List Name) {series other : Series}
    (apart : ¬ Compete candidate series other) :
    firstFree candidate (firstFree candidate used series :: used) other = firstFree candidate used other := by
  apply first_free_congr distinct
  intro place
  obtain ⟨taken, isTaken, _⟩ := first_free_spec distinct used series
  have differs : candidate other place ≠ firstFree candidate used series := by
    rw [isTaken]
    intro same
    exact apart ⟨taken, place, same.symm⟩
  simp [differs]

theorem shuffled_assign (distinct : Distinct candidate) {before after : List (Item × Series)}
    (shuffled : Shuffled candidate before after) (used : List Name) :
    (assign candidate used before).Perm (assign candidate used after) := by
  induction shuffled generalizing used with
  | refl items => exact List.Perm.refl _
  | cons item _ ih => exact (ih _).cons _
  | swap first second rest apart =>
      have apart' : ¬ Compete candidate second.2 first.2 := by
        rintro ⟨place, position, same⟩
        exact apart ⟨position, place, same.symm⟩
      simp only [assign, first_free_apart distinct used apart, first_free_apart distinct used apart']
      have agree : ∀ name, name ∈ firstFree candidate used second.2 :: firstFree candidate used first.2 :: used ↔
          name ∈ firstFree candidate used first.2 :: firstFree candidate used second.2 :: used := by
        intro name
        simp only [List.mem_cons]
        exact or_left_comm
      rw [assign_congr distinct rest agree]
      exact List.Perm.swap _ _ _
  | trans _ _ _ first second => exact (first used).trans (second used)

/-- Every item gets one name, in their order. -/
theorem assign_items (items : List (Item × Series)) (used : List Name) :
    (assign candidate used items).map Prod.snd = items.map Prod.fst := by
  induction items generalizing used with
  | nil => rfl
  | cons item rest ih => simp only [assign, List.map_cons, ih]

/-- A name is one of the series that its item asks for. -/
theorem mem_assign (distinct : Distinct candidate) {items : List (Item × Series)} {used : List Name} {name : Name}
    {item : Item} (member : (name, item) ∈ assign candidate used items) :
    ∃ series place, (item, series) ∈ items ∧ name = candidate series place := by
  induction items generalizing used with
  | nil => cases member
  | cons first rest ih =>
      rcases List.mem_cons.mp member with same | later
      · obtain ⟨place, isFirst, _⟩ := first_free_spec distinct used first.2
        cases same
        exact ⟨first.2, place, List.mem_cons_self, isFirst⟩
      · obtain ⟨series, place, known, isName⟩ := ih later
        exact ⟨series, place, List.mem_cons_of_mem _ known, isName⟩

/-- No name is given twice, and none that was in use. -/
theorem assign_fresh (distinct : Distinct candidate) (items : List (Item × Series)) (used : List Name) :
    ((assign candidate used items).map Prod.fst).Nodup ∧
      ∀ name ∈ (assign candidate used items).map Prod.fst, name ∉ used := by
  induction items generalizing used with
  | nil => simp [assign]
  | cons item rest ih =>
      obtain ⟨nodup, apart⟩ := ih (firstFree candidate used item.2 :: used)
      have free := first_free_not_used distinct used item.2
      simp only [assign, List.map_cons, List.nodup_cons]
      refine ⟨⟨?_, nodup⟩, ?_⟩
      · intro member
        exact apart _ member List.mem_cons_self
      · intro name member
        rcases List.mem_cons.mp member with rfl | later
        · exact free
        · exact fun inUse => apart name later (List.mem_cons_of_mem _ inUse)

/-- A list is named after the names of the list before it. -/
theorem assign_append (distinct : Distinct candidate) (first second : List (Item × Series)) (used : List Name) :
    assign candidate used (first ++ second) =
      assign candidate used first ++ assign candidate ((assign candidate used first).map Prod.fst ++ used) second := by
  induction first generalizing used with
  | nil => rfl
  | cons item rest ih =>
      simp only [List.cons_append, assign, List.map_cons]
      rw [ih]
      congr 2
      apply assign_congr distinct
      intro name
      simp only [List.mem_append, List.mem_cons]
      tauto

/-- More names in use change nothing, when none of them is given. -/
theorem assign_kept (distinct : Distinct candidate) {extra : List Name} (items : List (Item × Series)) {used : List Name}
    (apart : ∀ name ∈ (assign candidate used items).map Prod.fst, name ∉ extra) :
    assign candidate (extra ++ used) items = assign candidate used items := by
  induction items generalizing used with
  | nil => rfl
  | cons item rest ih =>
      obtain ⟨place, isFirst, free⟩ := first_free_spec distinct used item.2
      have given : firstFree candidate used item.2 ∉ extra := apart _ (by simp [assign])
      have stays : FreeAt candidate (extra ++ used) item.2 place := by
        refine ⟨?_, fun earlier before => List.mem_append_right _ (free.2 earlier before)⟩
        rw [List.mem_append, not_or]
        exact ⟨isFirst ▸ given, free.1⟩
      have same : firstFree candidate (extra ++ used) item.2 = firstFree candidate used item.2 := by
        rw [isFirst, first_free_eq distinct stays]
      have later : assign candidate (extra ++ (firstFree candidate used item.2 :: used)) rest =
          assign candidate (firstFree candidate used item.2 :: used) rest :=
        ih fun name member => apart name (by simp [assign, member])
      simp only [assign, same]
      rw [← later]
      congr 1
      apply assign_congr distinct
      intro name
      simp only [List.mem_append, List.mem_cons]
      tauto

variable (candidate) in
/-- Each name is the first free one of its series, when the names before it are in use. -/
def Expected (used : List Name) : List (Series × Name) → Prop
  | [] => True
  | (series, name) :: rest =>
      (∃ place, name = candidate series place ∧ FreeAt candidate used series place) ∧ Expected (name :: used) rest

omit [DecidableEq Name] in
/-- The names are free and distinct, and those that come before them in their series are not free. -/
theorem expected_iff (items : List (Series × Name)) (used : List Name) :
    Expected candidate used items ↔ (items.map Prod.snd).Nodup ∧ (∀ name ∈ items.map Prod.snd, name ∉ used) ∧
      ∀ before series name after, items = before ++ (series, name) :: after →
        ∃ place, name = candidate series place ∧
          ∀ earlier < place, candidate series earlier ∈ before.map Prod.snd ∨ candidate series earlier ∈ used := by
  induction items generalizing used with
  | nil => simp [Expected]
  | cons item rest ih =>
      obtain ⟨series, name⟩ := item
      rw [Expected, ih]
      constructor
      · rintro ⟨⟨place, rfl, free⟩, nodup, apart, first⟩
        refine ⟨?_, ?_, ?_⟩
        · rw [List.map_cons, List.nodup_cons]
          exact ⟨fun member => apart _ member List.mem_cons_self, nodup⟩
        · intro other member
          rcases List.mem_cons.mp member with rfl | later
          · exact free.1
          · exact fun inUse => apart other later (List.mem_cons_of_mem _ inUse)
        · intro before other given after split
          -- the item is the first one, or one of the rest with the first before it
          cases before with
          | nil =>
              cases split
              exact ⟨place, rfl, fun earlier within => .inr (free.2 earlier within)⟩
          | cons head before =>
              obtain ⟨rfl, later⟩ := List.cons.inj split
              obtain ⟨position, isName, passed⟩ := first before other given after later
              refine ⟨position, isName, fun earlier within => ?_⟩
              rcases passed earlier within with early | inUse
              · exact .inl (List.mem_cons_of_mem _ early)
              · rcases List.mem_cons.mp inUse with same | inUse
                · exact .inl (same ▸ List.mem_cons_self)
                · exact .inr inUse
      · rintro ⟨nodup, apart, first⟩
        rw [List.map_cons, List.nodup_cons] at nodup
        obtain ⟨place, isName, passed⟩ := first [] series name rest rfl
        refine ⟨⟨place, isName, ?_, fun earlier within => ?_⟩, nodup.2, ?_, ?_⟩
        · rw [← isName]
          exact apart name List.mem_cons_self
        · simpa using passed earlier within
        · intro other member inUse
          rcases List.mem_cons.mp inUse with rfl | inUse
          · exact nodup.1 member
          · exact apart other (List.mem_cons_of_mem _ member) inUse
        · intro before other given after split
          obtain ⟨position, same, passed⟩ := first ((series, name) :: before) other given after (by rw [split]; rfl)
          refine ⟨position, same, fun earlier within => ?_⟩
          rcases passed earlier within with early | inUse
          · rcases List.mem_cons.mp early with same | early
            · exact .inr (same ▸ List.mem_cons_self)
            · exact .inl early
          · exact .inr (List.mem_cons_of_mem _ inUse)

theorem assign_expected_iff (distinct : Distinct candidate) (items : List (Item × Series × Name)) (used : List Name) :
    assign candidate used (items.map fun item => (item.1, item.2.1)) = items.map (fun item => (item.2.2, item.1)) ↔
      Expected candidate used (items.map Prod.snd) := by
  induction items generalizing used with
  | nil => simp [assign, Expected]
  | cons item rest ih =>
      obtain ⟨item, series, name⟩ := item
      have first : firstFree candidate used series = name ↔ ∃ place, name = candidate series place ∧ FreeAt candidate used series place := by
        constructor
        · intro isFirst
          obtain ⟨place, same, free⟩ := first_free_spec distinct used series
          exact ⟨place, isFirst.symm.trans same, free⟩
        · rintro ⟨place, same, free⟩
          rw [same, first_free_eq distinct free]
      simp only [List.map_cons, assign, Expected, List.cons.injEq, Prod.mk.injEq, and_true]
      rw [← first]
      constructor
      · rintro ⟨isName, later⟩
        subst isName
        exact ⟨rfl, (ih _).mp later⟩
      · rintro ⟨isName, later⟩
        subst isName
        exact ⟨rfl, (ih _).mpr later⟩

end Lists

end Countinghouse.FreshNames
