import Mathlib

/-!
A directory whose entries have owners. Owners belong to houses; an entry passes between
owners of one house, and to another house only after it was given up.
-/

namespace Countinghouse.OwnedEntries

variable {Key Owner House Entry : Type} [DecidableEq Key] [DecidableEq Owner] [DecidableEq House]

/-- Who holds each key, and with which entry. -/
abbrev Directory (Key Owner Entry : Type) := Key → Option (Owner × Entry)

inductive Move (Key Owner Entry : Type) where
  | enter (key : Key) (owner : Owner) (entry : Entry)
  /-- A new entry for a key that the owner holds already. -/
  | revise (key : Key) (owner : Owner) (entry : Entry)
  | leave (owner : Owner)
  | strike (key : Key)

def holder (d : Directory Key Owner Entry) (key : Key) : Option Owner := (d key).map Prod.fst

variable (house : Owner → House) (closed : Key → Prop) [DecidablePred closed]

/-- A key that nobody holds is free unless it is closed, and one that is held is free to its house. -/
def Admits (d : Directory Key Owner Entry) (key : Key) (owner : Owner) : Prop :=
  match holder d key with
  | none => ¬ closed key
  | some other => house other = house owner

instance (d : Directory Key Owner Entry) (key : Key) (owner : Owner) : Decidable (Admits house closed d key owner) := by
  unfold Admits
  cases holder d key <;> infer_instance

def move (d : Directory Key Owner Entry) : Move Key Owner Entry → Directory Key Owner Entry
  | .enter key owner entry => if Admits house closed d key owner then Function.update d key (some (owner, entry)) else d
  | .revise key owner entry => if holder d key = some owner then Function.update d key (some (owner, entry)) else d
  | .leave owner => fun key => if holder d key = some owner then none else d key
  | .strike key => Function.update d key none

def moveAll (d : Directory Key Owner Entry) (moves : List (Move Key Owner Entry)) : Directory Key Owner Entry :=
  moves.foldl (move house closed) d

theorem move_all_append (d : Directory Key Owner Entry) (first second : List (Move Key Owner Entry)) :
    moveAll house closed d (first ++ second) = moveAll house closed (moveAll house closed d first) second :=
  List.foldl_append ..

/-- The house that holds a key. -/
def heldBy (d : Directory Key Owner Entry) (key : Key) : Option House := (holder d key).map house

/-- The moves after which a house may not hold a key any more. -/
def GivesUp (key : Key) (name : House) : Move Key Owner Entry → Prop
  | .leave owner => house owner = name
  | .strike other => other = key
  | _ => False

omit [DecidableEq Owner] in
theorem holder_update (d : Directory Key Owner Entry) (key other : Key) (value : Option (Owner × Entry)) :
    holder (Function.update d key value) other = if other = key then value.map Prod.fst else holder d other := by
  by_cases same : other = key
  · subst same
    simp [holder]
  · simp [holder, same]

theorem held_move {d : Directory Key Owner Entry} {key : Key} {name : House} (held : heldBy house d key = some name)
    {m : Move Key Owner Entry} (kept : ¬ GivesUp house key name m) :
    heldBy house (move house closed d m) key = some name := by
  obtain ⟨owner, isOwner, isHouse⟩ := Option.map_eq_some_iff.1 held
  cases m with
  | enter other owner' entry =>
      simp only [move]
      split
      · rename_i admitted
        by_cases same : key = other
        · subst same
          -- the key was free to the one who enters because both are of one house
          rw [Admits, isOwner] at admitted
          simp [heldBy, holder_update, ← admitted, isHouse]
        · simpa [heldBy, holder_update, same] using held
      · exact held
  | revise other owner' entry =>
      simp only [move]
      split
      · rename_i isHolder
        by_cases same : key = other
        · subst same
          obtain rfl := Option.some.inj (isOwner.symm.trans isHolder)
          simp [heldBy, holder_update, isHouse]
        · simpa [heldBy, holder_update, same] using held
      · exact held
  | leave other =>
      have apart : holder d key ≠ some other := by
        intro isOther
        obtain rfl := Option.some.inj (isOwner.symm.trans isOther)
        exact kept isHouse
      have same : move house closed d (.leave other) key = d key := by
        simp only [move]
        rw [if_neg apart]
      rwa [heldBy, holder, same]
  | strike other =>
      have apart : key ≠ other := fun same => kept same.symm
      simpa [heldBy, holder_update, move, apart] using held

/-- A key stays with its house until an owner of the house leaves or the key is struck. -/
theorem held_moves {d : Directory Key Owner Entry} {key : Key} {name : House} (held : heldBy house d key = some name)
    {moves : List (Move Key Owner Entry)} (kept : ∀ m ∈ moves, ¬ GivesUp house key name m) :
    heldBy house (moveAll house closed d moves) key = some name := by
  induction moves generalizing d with
  | nil => exact held
  | cons m rest ih =>
      have next := held_move house closed held (kept m List.mem_cons_self)
      exact ih next fun later member => kept later (List.mem_cons_of_mem _ member)

end Countinghouse.OwnedEntries
