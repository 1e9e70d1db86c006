import Countinghouse.RedisMetering

/-!
What the code reads of a value that JSON.parse has given.
-/

namespace Countinghouse.JsonValues

open RedisMetering

/-- A value is made of the values in it. -/
theorem json_induction {P : Json → Prop} (null : P .null) (bool : ∀ value, P (.bool value))
    (number : ∀ value, P (.number value)) (string : ∀ text, P (.string text))
    (array : ∀ items, (∀ item ∈ items, P item) → P (.array items))
    (object : ∀ fields : Fields, (∀ field ∈ fields, P field.2) → P (.object fields)) (value : Json) : P value := by
  refine @Json.rec P (fun items => ∀ item ∈ items, P item) (fun fields => ∀ field ∈ fields, P field.2)
    (fun field => P field.2) null bool number string array object ?_ ?_ ?_ ?_ ?_ value
  · simp
  · intro item items ofItem ofItems other member
    rcases List.mem_cons.mp member with rfl | later
    · exact ofItem
    · exact ofItems other later
  · simp
  · intro field fields ofField ofFields other member
    rcases List.mem_cons.mp member with rfl | later
    · exact ofField
    · exact ofFields other later
  · intro _ _ ofValue
    exact ofValue

/-- `value.name`, for a name that nothing but an object in the text has. -/
def member (value : Json) (name : String) : Option Json :=
  match value with
  | .object fields => fields.lookup name
  | _ => none

/-- `value.name`, with null for what is not there. -/
def memberOrNull (value : Json) (name : String) : Json := (member value name).getD .null

def isNull : Json → Bool
  | .null => true
  | _ => false

def truthy : Json → Bool
  | .null => false
  | .bool value => value
  | .number value => value ≠ 0
  | .string text => text ≠ ""
  | .array _ | .object _ => true

/-- `===`, for values of which one is no part of the other's text. -/
def sameValue : Json → Json → Bool
  | .null, .null => true
  | .bool value, .bool other => value = other
  | .number value, .number other => value = other
  | .string text, .string other => text = other
  | _, _ => false

/-- `values.indexOf(value) !== -1` -/
def includes (values : List Json) (value : Json) : Bool := values.any fun other => sameValue other value

/-- A number that is whole and above zero. -/
def positiveInteger : Json → Option Nat
  | .number value => if value.isInt ∧ 0 < value then some value.num.toNat else none
  | _ => none

mutual

/-- `String(value)` throws: for an object with its own `toString`, which JSON makes no function, and for a list that has
one in it. -/
def textless : Json → Bool
  | .array items => anyTextless items
  | .object fields => (fields.lookup "toString").isSome
  | _ => false

def anyTextless : List Json → Bool
  | [] => false
  | item :: rest => textless item || anyTextless rest

end

/-- The error's message. -/
def NO_TEXT : String := "Cannot convert object to primitive value"

theorem positive_integer_pos {value : Json} {number : Nat} (is : positiveInteger value = some number) : 0 < number := by
  unfold positiveInteger at is
  split at is
  · split at is
    · rename_i whole
      simp only [Option.some.injEq] at is
      have positive := Rat.num_pos.mpr whole.2
      omega
    · cases is
  · cases is

theorem same_value_trans {value middle other : Json} (first : sameValue value middle = true)
    (second : sameValue middle other = true) : sameValue value other = true := by
  cases value <;> cases middle <;> cases other <;> simp_all [sameValue]

theorem includes_text (devices : List String) (text : String) :
    includes (devices.map Json.string) (.string text) = true ↔ text ∈ devices := by
  simp [includes, sameValue, List.any_map, Function.comp_def]

/-! A loop that goes on until a turn of it throws. -/

theorem mapM_ok_iff {Value Result : Type} {act : Value → Except String Result} :
    ∀ {values : List Value} {results : List Result},
      values.mapM act = .ok results ↔ List.Forall₂ (fun value result => act value = .ok result) values results := by
  intro values
  induction values with
  | nil => intro results; simp [pure, Except.pure, eq_comm]
  | cons value rest ih =>
      intro results
      rw [List.mapM_cons, List.forall₂_cons_left_iff]
      cases first : act value with
      | error message => simp [bind, Except.bind]
      | ok result =>
          cases later : rest.mapM act with
          | error message =>
              have none : ∀ results, ¬ List.Forall₂ (fun value result => act value = .ok result) rest results := by
                intro results all
                rw [ih.mpr all] at later
                cases later
              simp [bind, Except.bind, none]
          | ok others =>
              have same : ∀ results, List.Forall₂ (fun value result => act value = .ok result) rest results ↔ others = results := by
                intro results
                rw [← ih, later, Except.ok.injEq]
              simp [bind, Except.bind, pure, Except.pure, same, eq_comm]

theorem mapM_error {Value Result : Type} {act : Value → Except String Result} {message : String} {values : List Value}
    (error : values.mapM act = .error message) : ∃ value ∈ values, act value = .error message := by
  induction values with
  | nil => cases error
  | cons value rest ih =>
      rw [List.mapM_cons] at error
      cases first : act value with
      | error thrown =>
          simp only [first, bind, Except.bind] at error
          cases error
          exact ⟨value, List.mem_cons_self, first⟩
      | ok result =>
          cases later : rest.mapM act with
          | error thrown =>
              simp only [first, later, bind, Except.bind] at error
              cases error
              obtain ⟨other, member, isError⟩ := ih later
              exact ⟨other, List.mem_cons_of_mem _ member, isError⟩
          | ok results => simp [first, later, bind, Except.bind, pure, Except.pure] at error

end Countinghouse.JsonValues
