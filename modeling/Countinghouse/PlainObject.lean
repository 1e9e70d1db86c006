import Mathlib.Data.List.Nodup
import Mathlib.Data.List.Sort

/-!
JavaScript objects that are used as maps. An object is the list of its own properties in the
order of their insertion, which is also the order of a `for in` when no key is an array
index; those that are come first. A key that is no own property is looked up in `Object.prototype`.
-/

namespace Countinghouse.PlainObject

abbrev Table (Value : Type) := List (String × Value)

variable {Value : Type}

/-- `table[key] = value` -/
def setKey (table : Table Value) (key : String) (value : Value) : Table Value :=
  if table.any fun entry => entry.1 = key then
    table.map fun entry => if entry.1 = key then (key, value) else entry
  else table ++ [(key, value)]

/-- `delete table[key]` -/
def deleteKey (table : Table Value) (key : String) : Table Value :=
  table.filter fun entry => entry.1 ≠ key

/-- `Object.assign(table, other)` -/
def assignAll (table other : Table Value) : Table Value :=
  other.foldl (fun table entry => setKey table entry.1 entry.2) table

/-- The number of a key that is an array index: the text of a number below 2^32 - 1. -/
def arrayIndex (key : String) : Option Nat :=
  let number := key.toList.foldl (fun number c => 10 * number + (c.toNat - '0'.toNat)) 0
  if toString number = key ∧ number < 4294967295 then some number else none

/-- The order of array indices. -/
def IndexLe (left right : String × Value) : Prop := (arrayIndex left.1).getD 0 ≤ (arrayIndex right.1).getD 0

instance : DecidableRel (@IndexLe Value) := fun _ _ => inferInstanceAs (Decidable (_ ≤ _))

/-- The properties in the order of `for (key in table)`. -/
def enumerated (table : Table Value) : Table Value :=
  (table.filter fun entry => (arrayIndex entry.1).isSome).insertionSort IndexLe ++
    table.filter fun entry => (arrayIndex entry.1).isNone

/-- The properties of `Object.prototype`. All but `__proto__` are functions. -/
def inheritedNames : List String :=
  ["constructor", "hasOwnProperty", "isPrototypeOf", "propertyIsEnumerable", "toLocaleString", "toString", "valueOf",
    "__defineGetter__", "__defineSetter__", "__lookupGetter__", "__lookupSetter__", "__proto__"]

/-- What `table[key]` is. -/
inductive Slot (Value : Type) where
  | own (value : Value)
  | inherited
  | undefined

def get (table : Table Value) (key : String) : Slot Value :=
  match table.lookup key with
  | some value => .own value
  | none => if key ∈ inheritedNames then .inherited else .undefined

theorem get_own {table : Table Value} {key : String} {value : Value} (found : table.lookup key = some value) :
    get table key = .own value := by
  simp [get, found]

theorem own_lookup {table : Table Value} {key : String} {value : Value} (found : get table key = .own value) :
    table.lookup key = some value := by
  unfold get at found
  split at found
  · rename_i isValue
    cases found
    exact isValue
  · split at found <;> cases found

theorem inherited_mem {table : Table Value} {key : String} (found : get table key = .inherited) :
    key ∈ inheritedNames := by
  unfold get at found
  split at found
  · cases found
  · split at found
    · assumption
    · cases found

theorem undefined_lookup {table : Table Value} {key : String} (found : get table key = .undefined) :
    table.lookup key = none := by
  unfold get at found
  split at found
  · cases found
  · assumption

theorem get_inherited {table : Table Value} {key : String} (missing : table.lookup key = none)
    (known : key ∈ inheritedNames) : get table key = .inherited := by
  simp [get, missing, known]

theorem get_undefined {table : Table Value} {key : String} (missing : table.lookup key = none)
    (unknown : key ∉ inheritedNames) : get table key = .undefined := by
  simp [get, missing, unknown]

theorem setKey_mem {table : Table Value} {key : String} {value : Value} {entry : String × Value}
    (member : entry ∈ setKey table key value) : entry ∈ table ∨ entry = (key, value) := by
  unfold setKey at member
  split at member
  · obtain ⟨old, there, same⟩ := List.mem_map.mp member
    split at same
    · exact Or.inr same.symm
    · exact Or.inl (same ▸ there)
  · simpa using member

/-- Only other keys are left of what was there. -/
theorem setKey_mem_or {table : Table Value} {key : String} {value : Value} {entry : String × Value}
    (member : entry ∈ setKey table key value) : entry = (key, value) ∨ entry ∈ table ∧ entry.1 ≠ key := by
  unfold setKey at member
  split at member
  · obtain ⟨old, there, same⟩ := List.mem_map.mp member
    split at same
    next => exact Or.inl same.symm
    next differs => exact Or.inr (same ▸ ⟨there, differs⟩)
  next absent =>
    rcases List.mem_append.mp member with old | new
    · exact Or.inr ⟨old, fun same => absent (List.any_eq_true.mpr ⟨entry, old, by simpa using same⟩)⟩
    · exact Or.inl (List.mem_singleton.mp new)

theorem setKey_absent {table : Table Value} {key : String} (absent : key ∉ table.map Prod.fst) (value : Value) :
    setKey table key value = table ++ [(key, value)] := by
  have none : (table.any fun entry => entry.1 = key) = false := by
    rw [List.any_eq_false]
    intro entry member
    simpa using fun same : entry.1 = key => absent (same ▸ List.mem_map_of_mem member)
  simp [setKey, none]

/-- A key that is set does not come twice. -/
theorem setKey_nodup {table : Table Value} (nodup : (table.map Prod.fst).Nodup) (key : String) (value : Value) :
    ((setKey table key value).map Prod.fst).Nodup := by
  by_cases there : key ∈ table.map Prod.fst
  · have found : (table.any fun entry => entry.1 = key) = true := by simpa [List.any_eq_true] using there
    have same : (table.map fun entry => if entry.1 = key then (key, value) else entry).map Prod.fst =
        table.map Prod.fst := by
      rw [List.map_map]
      refine List.map_congr_left fun entry _ => ?_
      by_cases equal : entry.1 = key <;> simp [equal]
    rw [setKey, if_pos found, same]
    exact nodup
  · rw [setKey_absent there, List.map_append, List.nodup_append]
    refine ⟨nodup, List.nodup_singleton _, ?_⟩
    rintro name member other isKey rfl
    have same : name = key := List.mem_singleton.mp isKey
    exact there (same ▸ member)

/-! Enumeration. -/
section Enumeration

theorem mem_enumerated {table : Table Value} {entry : String × Value} : entry ∈ enumerated table ↔ entry ∈ table := by
  rw [enumerated, List.mem_append, List.mem_insertionSort, List.mem_filter, List.mem_filter]
  cases arrayIndex entry.1 <;> simp

/-- An item that is not kept leaves no trace in a sorted list. -/
theorem filter_inserted (keep : String × Value → Bool) (item : String × Value) (items : Table Value)
    (sorted : items.Pairwise IndexLe) :
    (items.orderedInsert IndexLe item).filter keep =
      if keep item then (items.filter keep).orderedInsert IndexLe item else items.filter keep := by
  induction items with
  | nil => cases kept : keep item <;> simp [kept]
  | cons head rest ih =>
      obtain ⟨least, sorted⟩ := List.pairwise_cons.mp sorted
      by_cases before : IndexLe item head
      · rw [List.orderedInsert_cons, if_pos before, List.filter_cons]
        split
        · -- nothing that is kept of the rest comes before the item
          cases kept : (head :: rest).filter keep with
          | nil => rfl
          | cons first more =>
              have member : first ∈ head :: rest := List.mem_of_mem_filter (kept ▸ List.mem_cons_self)
              have after : IndexLe item first := by
                rcases List.mem_cons.mp member with rfl | later
                · exact before
                · exact Nat.le_trans before (least first later)
              rw [List.orderedInsert_cons_of_le _ _ after]
        · rfl
      · rw [List.orderedInsert_cons, if_neg before, List.filter_cons, ih sorted, List.filter_cons]
        cases kept : keep item <;> cases keptHead : keep head <;> simp [before]

/-- What is left out does not change the order of the others. -/
theorem enumerated_filter (keep : String × Value → Bool) (table : Table Value) :
    (enumerated table).filter keep = enumerated (table.filter keep) := by
  have : Std.Total (@IndexLe Value) := ⟨fun _ _ => Nat.le_total _ _⟩
  have : IsTrans (String × Value) IndexLe := ⟨fun _ _ _ first second => Nat.le_trans first second⟩
  have sorted : ∀ items : Table Value,
      (items.insertionSort IndexLe).filter keep = (items.filter keep).insertionSort IndexLe := by
    intro items
    induction items with
    | nil => rfl
    | cons item rest ih =>
        rw [List.insertionSort_cons, filter_inserted keep item _ (List.pairwise_insertionSort IndexLe rest), ih,
          List.filter_cons]
        split <;> rfl
  rw [enumerated, List.filter_append, sorted, enumerated, List.filter_filter, List.filter_filter, List.filter_filter,
    List.filter_filter]
  simp only [Bool.and_comm]

end Enumeration

theorem mem_deleteKey {table : Table Value} {key : String} {entry : String × Value} :
    entry ∈ deleteKey table key ↔ entry ∈ table ∧ entry.1 ≠ key := by
  simp [deleteKey]

theorem deleteKey_absent {table : Table Value} {key : String} (absent : key ∉ table.map Prod.fst) :
    deleteKey table key = table := by
  apply List.filter_eq_self.mpr
  intro entry member
  simpa using fun same : entry.1 = key => absent (same ▸ List.mem_map_of_mem member)

theorem lookup_mem {table : Table Value} {key : String} {value : Value} (found : table.lookup key = some value) :
    (key, value) ∈ table := by
  obtain ⟨before, after, split, -⟩ := List.lookup_eq_some_iff.mp found
  simp [split]

theorem lookup_iff_mem {table : Table Value} (nodup : (table.map Prod.fst).Nodup) (key : String) (value : Value) :
    table.lookup key = some value ↔ (key, value) ∈ table := by
  induction table with
  | nil => simp
  | cons entry rest ih =>
      obtain ⟨name, held⟩ := entry
      simp only [List.map_cons, List.nodup_cons] at nodup
      by_cases same : key = name
      · subst same
        have absent : (key, value) ∉ rest := fun member => nodup.1 (List.mem_map.mpr ⟨_, member, rfl⟩)
        simp [absent, eq_comm]
      · have differs : (key == name) = false := by simpa using same
        simp [List.lookup_cons, differs, ih nodup.2, same]

theorem lookup_setKey (table : Table Value) (key other : String) (value : Value) :
    (setKey table key value).lookup other = if other = key then some value else table.lookup other := by
  have changed : (table.map fun entry => if entry.1 = key then (key, value) else entry).lookup other =
      if other = key then (table.lookup key).map fun _ => value else table.lookup other := by
    induction table with
    | nil => simp
    | cons entry rest ih =>
        obtain ⟨name, held⟩ := entry
        by_cases named : name = key
        · subst named
          by_cases same : other = name
          · simp [same]
          · have differs : (other == name) = false := by simpa using same
            simpa [List.lookup_cons, differs, same] using ih
        · by_cases same : other = name
          · subst same
            simp [named]
          · have differs : (other == name) = false := by simpa using same
            have apart : (key == name) = false := by simpa using fun equal : key = name => named equal.symm
            simpa [named, List.lookup_cons, differs, apart] using ih
  unfold setKey
  split
  · rename_i there
    obtain ⟨entry, member, named⟩ := List.any_eq_true.mp there
    have found : table.lookup key ≠ none := by
      intro missing
      have absent := List.lookup_eq_none_iff.mp missing entry member
      simp_all
    obtain ⟨held, isHeld⟩ := Option.ne_none_iff_exists'.mp found
    rw [changed, isHeld]
    rfl
  · rename_i absent
    have missing : table.lookup key = none := by
      rw [List.lookup_eq_none_iff]
      intro entry member
      simp only [List.any_eq_true, decide_eq_true_eq, not_exists, not_and] at absent
      simpa using fun equal : key = entry.1 => absent entry member equal.symm
    rw [List.lookup_append]
    by_cases same : other = key
    · subst same
      simp [missing]
    · have differs : (other == key) = false := by simpa using same
      simp [List.lookup_cons, differs, same]

theorem lookup_deleteKey (table : Table Value) (key other : String) :
    (deleteKey table key).lookup other = if other = key then none else table.lookup other := by
  unfold deleteKey
  induction table with
  | nil => simp
  | cons entry rest ih =>
      obtain ⟨name, held⟩ := entry
      by_cases named : name = key
      · subst named
        by_cases same : other = name
        · simpa [same] using ih
        · have differs : (other == name) = false := by simpa using same
          simpa [List.lookup_cons, differs, same] using ih
      · by_cases same : other = name
        · subst same
          simp [named]
        · have differs : (other == name) = false := by simpa using same
          simpa [named, List.lookup_cons, differs] using ih

/-- A table without repeated keys is what it gives for each key. -/
theorem lookup_perm {table other : Table Value} (perm : table.Perm other) (nodup : (table.map Prod.fst).Nodup)
    (key : String) : table.lookup key = other.lookup key := by
  apply Option.ext
  intro value
  rw [lookup_iff_mem nodup, lookup_iff_mem ((perm.map _).nodup_iff.mp nodup)]
  exact perm.mem_iff

theorem lookup_filter_values {table : Table Value} (nodup : (table.map Prod.fst).Nodup) (keep : Value → Bool)
    (key : String) : (table.filter fun entry => keep entry.2).lookup key = (table.lookup key).filter keep := by
  have kept : ((table.filter fun entry => keep entry.2).map Prod.fst).Nodup := nodup.sublist (List.filter_sublist.map _)
  apply Option.ext
  intro value
  rw [lookup_iff_mem kept, List.mem_filter, Option.filter_eq_some_iff, lookup_iff_mem nodup]

theorem deleteKey_nodup {table : Table Value} (nodup : (table.map Prod.fst).Nodup) (key : String) :
    ((deleteKey table key).map Prod.fst).Nodup :=
  nodup.sublist (List.filter_sublist.map _)

end Countinghouse.PlainObject
