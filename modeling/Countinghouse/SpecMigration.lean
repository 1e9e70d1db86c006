import Countinghouse.JsonValues
import Countinghouse.PlainObject
import Countinghouse.SplitText

/-!
bin/countinghouse-migrate-spec.js: an api.json of before 5.0.0 becomes one of 5.0.0. A spec is a
value that JSON.parse has given; the properties of an object are listed in the order of a `for in`.
-/

namespace Countinghouse.SpecMigration

open PlainObject JsonValues
open RedisMetering (Json Fields)
open SplitText (codeUnits)

/-! Specs. -/
section Specs

/-- `device`, with its services apart from its other properties. -/
structure Device where
  rest : Fields
  serviceList : Option (Table Fields)

/-- The spec, with its device apart from its other properties. -/
structure Spec where
  rest : Fields
  device : Option Device

def Spec.services (spec : Spec) : Table Fields := (spec.device.bind Device.serviceList).getD []

/-- What a `for in` goes through. -/
def properties : Json → Fields
  | .object fields => fields
  | .array items => items.mapIdx fun index item => (toString index, item)
  | .string text => (codeUnits text).mapIdx fun index unit => (toString index, .string unit)
  | _ => []

/-- `fields[key]`, unless it is null or undefined. -/
def present (fields : Fields) (key : String) : Option Json := (fields.lookup key).filter fun value => !isNull value

def isArray : Option Json → Bool
  | some (.array _) => true
  | _ => false

def DROPPED_ACTION_KEYS : List String := ["argumentList", "realPrice", "priceInfo", "freeCount", "apiCache", "apiLog"]

def isOldFormat (spec : Spec) : Bool :=
  spec.services.any fun service =>
    (present service.2 "serviceStateTable").isSome || !isArray (service.2.lookup "actionList")

end Specs

/-! The migration. -/
section Migration

-- `String(value)`, for what is no string
variable (textOf : Json → String)

def toText : Json → String
  | .string text => text
  | value => textOf value

/-- `stateTable && stateTable[varName]` -/
def stateVariable (stateTable : Option Json) (varName : String) : Slot Json :=
  match stateTable with
  | none => .undefined
  | some table => if truthy table then get (properties table) varName else .own table

def noSchema (place varName dataType : String) : String :=
  place ++ ": state variable \"" ++ varName ++ "\" has no schema pointer (dataType " ++ dataType ++
    "). Only object arguments carry over to the 5.0.0 format."

def schemaPointerFor (stateTable argument : Option Json) (place : String) : Except String (Option String) :=
  match argument with
  | none => .ok none
  | some argument =>
      match present (properties argument) "relatedStateVariable" with
      | none => .error (place ++ ": argument has no relatedStateVariable, nothing to convert it to")
      | some name =>
          let varName := toText textOf name
          let missing := place ++ ": relatedStateVariable \"" ++ varName ++ "\" is not in serviceStateTable"
          match stateVariable stateTable varName with
          | .undefined | .own .null => .error missing
          | .inherited => .error (noSchema place varName "undefined")
          | .own stateVar =>
              match member stateVar "schema" with
              | some (.string schema) => .ok (some schema)
              | _ => .error (noSchema place varName (((member stateVar "dataType").map (toText textOf)).getD "undefined"))

/-- `(action.argumentList || {})[which]`, unless it is null or undefined. -/
def argumentOf (action : Json) (which : String) : Option Json :=
  (((properties action).lookup "argumentList").filter truthy).bind fun argumentList => present (properties argumentList) which

/-- `{schema: pointer}` -/
def pointer (schema : String) : Json := .object [("schema", .string schema)]

/-- A property, where there is a value for it. -/
def optional (key : String) (value : Option Json) : Fields := (value.map fun value => (key, value)).toList

/-- `out[key] = value`, on an object that begins without a property of that name. -/
def assign (out : Fields) (key : String) (value : Json) : Fields :=
  if key = "__proto__" then out else setKey out key value

/-- The loop over the keys that are carried over. -/
def carryOver (action : Fields) (keys : List String) (out : Fields) : Fields :=
  keys.foldl (fun out key =>
    if key ∈ ["name", "description", "fault"] ∨ key ∈ DROPPED_ACTION_KEYS then out
    else assign out key ((action.lookup key).getD .null)) out

/-- What the new action begins with. -/
def converted (name : String) (action : Fields) (input output : Option String) : Fields :=
  optional "name" (some (.string name)) ++ optional "description" (present action "description") ++
    optional "input" (input.map pointer) ++ optional "output" (output.map pointer) ++
      optional "fault" (present action "fault")

def migrateAction (actionName : String) (action : Json) (stateTable : Option Json) (place : String) : Except String Json :=
  match action with
  | .null => .error "Cannot read properties of null (reading 'description')"
  | _ => do
      let input ← schemaPointerFor textOf stateTable (argumentOf action "input") (place ++ "/input")
      let output ← schemaPointerFor textOf stateTable (argumentOf action "output") (place ++ "/output")
      .ok (.object (carryOver (properties action) ((properties action).map Prod.fst)
        (converted actionName (properties action) input output)))

/-- One turn of the loop over the services. -/
def migrateService (label : String) (service : String × Fields) : Except String (String × Fields) :=
  if isArray (service.2.lookup "actionList") then .ok service
  else do
    let actions ← (properties ((service.2.lookup "actionList").getD .null)).mapM fun action =>
      migrateAction textOf action.1 action.2 (service.2.lookup "serviceStateTable") (label ++ service.1 ++ "/" ++ action.1)
    .ok (service.1, deleteKey (setKey service.2 "actionList" (.array actions)) "serviceStateTable")

def migrate (spec : Spec) (label : String) : Except String Spec :=
  if isOldFormat spec then do
    let services ← spec.services.mapM (migrateService textOf (if label = "" then "" else label ++ " "))
    .ok ⟨deleteKey (deleteKey spec.rest "configId") "specVersion",
      spec.device.map fun device => ⟨device.rest, device.serviceList.map fun _ => services⟩⟩
  else .ok spec

end Migration

/-! The property. -/
section Meaning

variable (textOf : Json → String)

/-- The argument names a state variable with that schema. -/
def Names (stateTable : Option Json) (argument : Json) (schema : String) : Prop :=
  ∃ name table stateVar, present (properties argument) "relatedStateVariable" = some name ∧ stateTable = some table ∧
    (properties table).lookup (toText textOf name) = some stateVar ∧ member stateVar "schema" = some (.string schema)

/-- The pointer is that of the argument, and absent where the argument is. -/
def PointerKept (stateTable : Option Json) (action : Json) (fields : Fields) (which : String) : Prop :=
  match argumentOf action which with
  | none => present fields which = none
  | some argument => ∃ schema, Names textOf stateTable argument schema ∧ fields.lookup which = some (pointer schema)

structure ActionKept (stateTable : Option Json) (name : String) (action : Json) (fields : Fields) : Prop where
  name : fields.lookup "name" = some (.string name)
  description : present fields "description" = present (properties action) "description"
  fault : present fields "fault" = present (properties action) "fault"
  input : PointerKept textOf stateTable action fields "input"
  output : PointerKept textOf stateTable action fields "output"
  retired : ∀ key ∈ DROPPED_ACTION_KEYS, fields.lookup key = none
  others : ∀ key, key ∉ ["name", "description", "fault", "input", "output"] → key ∉ DROPPED_ACTION_KEYS →
    fields.lookup key = (properties action).lookup key

/-- An action that had the new format keeps all but the retired keys. -/
def ItemKept (action item : Json) : Prop :=
  ∀ key, (properties item).lookup key = if key ∈ DROPPED_ACTION_KEYS then none else (properties action).lookup key

def ActionsKept (service : Fields) (items : List Json) : Prop :=
  match service.lookup "actionList" with
  | some (.array before) => List.Forall₂ ItemKept before items
  | actionList => List.Forall₂ (fun action item => ∃ fields, item = .object fields ∧
      ActionKept textOf (service.lookup "serviceStateTable") action.1 action.2 fields)
      (properties (actionList.getD .null)) items

structure ServiceKept (old new : String × Fields) : Prop where
  key : new.1 = old.1
  actions : ∃ items, new.2.lookup "actionList" = some (.array items) ∧ ActionsKept textOf old.2 items
  others : ∀ key ≠ "actionList", new.2.lookup key = if key = "serviceStateTable" then none else old.2.lookup key

structure Preserved (spec out : Spec) : Prop where
  newFormat : isOldFormat out = false
  again : ∀ label, migrate textOf out label = .ok out
  services : List.Forall₂ (ServiceKept textOf) spec.services out.services
  device : out.device.map Device.rest = spec.device.map Device.rest
  others : ∀ key, out.rest.lookup key = if key ∈ ["configId", "specVersion"] then none else spec.rest.lookup key

/-- The action has no pointer of its own besides the one that its argument stands for. -/
def OnePointer (stateTable : Option Json) (action : Json) (which : String) : Prop :=
  ∀ value, (properties action).lookup which = some value →
    match argumentOf action which with
    | none => isNull value = true
    | some argument => ∃ schema, Names textOf stateTable argument schema ∧ value = pointer schema

structure Convertible (stateTable : Option Json) (action : Json) : Prop where
  input : OnePointer textOf stateTable action "input"
  output : OnePointer textOf stateTable action "output"
  ordinary : (properties action).lookup "__proto__" = none

/-- Nothing of the old format in a list of actions, and nothing of the new format in another action. -/
def Unmixed (service : Fields) : Prop :=
  match service.lookup "actionList" with
  | some (.array items) =>
      service.lookup "serviceStateTable" = none ∧
        ∀ item ∈ items, ∀ key ∈ DROPPED_ACTION_KEYS, (properties item).lookup key = none
  | actionList => ∀ action ∈ properties (actionList.getD .null), Convertible textOf (service.lookup "serviceStateTable") action.2

end Meaning

/-! One action. -/
section Actions

variable {textOf : Json → String}

theorem lookup_optional (key other : String) (value : Option Json) :
    (optional key value).lookup other = if other = key then value else none := by
  cases value with
  | none => simp [optional]
  | some value =>
      by_cases same : other = key
      · simp [optional, same]
      · simp [optional, same]

theorem lookup_converted (name : String) (action : Fields) (input output : Option String) (key : String) :
    (converted name action input output).lookup key =
      if key = "name" then some (.string name)
      else if key = "description" then present action "description"
      else if key = "input" then input.map pointer
      else if key = "output" then output.map pointer
      else if key = "fault" then present action "fault"
      else none := by
  simp only [converted, List.lookup_append, lookup_optional]
  split
  · subst key
    simp
  split
  · subst key
    simp
  split
  · subst key
    simp
  split
  · subst key
    simp
  simp

theorem lookup_carry_over (action : Fields) (keys : List String) (key : String) : ∀ out : Fields,
    (carryOver action keys out).lookup key =
      if key ∈ keys ∧ key ∉ ["name", "description", "fault"] ∧ key ∉ DROPPED_ACTION_KEYS ∧ key ≠ "__proto__" then
        some ((action.lookup key).getD .null)
      else out.lookup key := by
  induction keys with
  | nil => intro out; simp [carryOver]
  | cons first rest ih =>
      intro out
      rw [carryOver, List.foldl_cons]
      refine (ih _).trans ?_
      -- the names that the loop passes over are set apart from the keys it assigns
      by_cases skipped : first ∈ ["name", "description", "fault"] ∨ first ∈ DROPPED_ACTION_KEYS
      · rw [if_pos skipped]
        by_cases same : key = first
        · subst same
          rw [if_neg, if_neg] <;> tauto
        · simp [same]
      · rw [if_neg skipped]
        by_cases same : key = first
        · subst same
          rw [not_or] at skipped
          by_cases proto : key = "__proto__"
          · simp [assign, proto]
          · simp [assign, proto, lookup_setKey, skipped.1, skipped.2]
        · have kept : (assign out first ((action.lookup first).getD .null)).lookup key = out.lookup key := by
            unfold assign
            split
            · rfl
            · rw [lookup_setKey, if_neg same]
          simp [kept, same]

/-- What a migrated action holds. -/
theorem lookup_migrated (name : String) (action : Fields) (input output : Option String) (key : String) :
    (carryOver action (action.map Prod.fst) (converted name action input output)).lookup key =
      if key ∉ ["name", "description", "fault"] ∧ key ∉ DROPPED_ACTION_KEYS ∧ key ≠ "__proto__" ∧ (action.lookup key).isSome then
        action.lookup key
      else (converted name action input output).lookup key := by
  rw [lookup_carry_over]
  have known : key ∈ action.map Prod.fst ↔ (action.lookup key).isSome = true := by
    rw [← not_iff_not, Bool.not_eq_true, Option.isSome_eq_false_iff, Option.isNone_iff_eq_none, List.lookup_eq_none_iff]
    simp only [List.mem_map, not_exists, not_and, ne_eq, bne_iff_ne]
    exact forall₂_congr fun entry _ => ⟨fun differs same => differs same.symm, fun differs same => differs same.symm⟩
  cases held : action.lookup key with
  | none =>
      have absent : key ∉ action.map Prod.fst := by rw [known, held]; simp
      simp [absent]
  | some value =>
      have there : key ∈ action.map Prod.fst := by rw [known, held]; rfl
      simp [there]

/-- A conversion that succeeds has found the schema. -/
theorem pointer_names {stateTable argument : Option Json} {place : String} {found : Option String}
    (done : schemaPointerFor textOf stateTable argument place = .ok found) :
    match argument with
    | none => found = none
    | some argument => ∃ schema, Names textOf stateTable argument schema ∧ found = some schema := by
  cases argument with
  | none =>
      simp only [schemaPointerFor, Except.ok.injEq] at done
      exact done.symm
  | some argument =>
      simp only [schemaPointerFor] at done
      split at done
      · cases done
      · rename_i name isName
        split at done
        · cases done
        · cases done
        · cases done
        · rename_i stateVar _ isVariable
          split at done
          · rename_i schema isSchema
            cases done
            refine ⟨schema, ?_, rfl⟩
            unfold stateVariable at isVariable
            split at isVariable
            · cases isVariable
            · rename_i table
              split at isVariable
              · exact ⟨name, table, stateVar, isName, rfl, own_lookup isVariable, isSchema⟩
              · -- what is falsy has no properties
                rename_i falsy
                cases isVariable
                cases stateVar <;> simp [truthy, member] at falsy isSchema
          · cases done

theorem pointer_kept_iff {stateTable : Option Json} {action : Json} {fields : Fields} {which place : String} {found : Option String}
    (done : schemaPointerFor textOf stateTable (argumentOf action which) place = .ok found)
    (held : fields.lookup which = ((properties action).lookup which).or (found.map pointer)) :
    PointerKept textOf stateTable action fields which ↔ OnePointer textOf stateTable action which := by
  unfold PointerKept OnePointer present
  rw [held]
  generalize argumentOf action which = argument at done
  cases argument with
  | none =>
      have absent : found = none := pointer_names done
      cases (properties action).lookup which <;> simp [absent, Option.filter]
  | some argument =>
      have named : ∃ schema, Names textOf stateTable argument schema ∧ found = some schema := pointer_names done
      cases (properties action).lookup which with
      | none =>
          obtain ⟨schema, isNamed, same⟩ := named
          simp only [Option.none_or, reduceCtorEq, false_implies, implies_true, iff_true]
          exact ⟨schema, isNamed, by rw [same]; rfl⟩
      | some value => simp

theorem migrate_action_ok {name place : String} {action item : Json} {stateTable : Option Json}
    (done : migrateAction textOf name action stateTable place = .ok item) :
    ∃ input output, schemaPointerFor textOf stateTable (argumentOf action "input") (place ++ "/input") = .ok input ∧
      schemaPointerFor textOf stateTable (argumentOf action "output") (place ++ "/output") = .ok output ∧
      item = .object (carryOver (properties action) ((properties action).map Prod.fst)
        (converted name (properties action) input output)) := by
  unfold migrateAction at done
  split at done
  · cases done
  · cases isInput : schemaPointerFor textOf stateTable (argumentOf action "input") (place ++ "/input") with
    | error message => simp [isInput, bind, Except.bind] at done
    | ok input =>
        cases isOutput : schemaPointerFor textOf stateTable (argumentOf action "output") (place ++ "/output") with
        | error message => simp [isInput, isOutput, bind, Except.bind] at done
        | ok output =>
            simp only [isInput, isOutput, bind, Except.bind, Except.ok.injEq] at done
            exact ⟨input, output, rfl, rfl, done.symm⟩

theorem migrate_action_kept {name place : String} {action item : Json} {stateTable : Option Json}
    (done : migrateAction textOf name action stateTable place = .ok item) :
    (∃ fields, item = .object fields ∧ ActionKept textOf stateTable name action fields) ↔ Convertible textOf stateTable action := by
  obtain ⟨input, output, isInput, isOutput, rfl⟩ := migrate_action_ok done
  have held := lookup_migrated name (properties action) input output
  generalize carryOver (properties action) ((properties action).map Prod.fst) (converted name (properties action) input output) =
    fields at held
  -- a key of the action's own is assigned over what the argument was converted to
  have ofInput : fields.lookup "input" = ((properties action).lookup "input").or (input.map pointer) := by
    rw [held, lookup_converted]
    cases (properties action).lookup "input" <;> simp [DROPPED_ACTION_KEYS]
  have ofOutput : fields.lookup "output" = ((properties action).lookup "output").or (output.map pointer) := by
    rw [held, lookup_converted]
    cases (properties action).lookup "output" <;> simp [DROPPED_ACTION_KEYS]
  have ofOrdinary : fields.lookup "__proto__" = none := by
    rw [held, lookup_converted]
    simp
  constructor
  · rintro ⟨_, same, kept⟩
    cases same
    refine ⟨(pointer_kept_iff isInput ofInput).mp kept.input, (pointer_kept_iff isOutput ofOutput).mp kept.output, ?_⟩
    rw [← kept.others "__proto__" (by decide) (by decide), ofOrdinary]
  · intro convertible
    refine ⟨fields, rfl, ?_⟩
    constructor
    case name => simp [held, lookup_converted]
    case description =>
      have once : fields.lookup "description" = present (properties action) "description" := by simp [held, lookup_converted]
      unfold present at once ⊢
      rw [once, Option.filter_filter]
      simp
    case fault =>
      have once : fields.lookup "fault" = present (properties action) "fault" := by simp [held, lookup_converted]
      unfold present at once ⊢
      rw [once, Option.filter_filter]
      simp
    case input => exact (pointer_kept_iff isInput ofInput).mpr convertible.input
    case output => exact (pointer_kept_iff isOutput ofOutput).mpr convertible.output
    case retired =>
      intro key dropped
      have apart : ∀ key ∈ DROPPED_ACTION_KEYS, key ∉ ["name", "description", "input", "output", "fault"] := by decide
      have other := apart key dropped
      simp only [List.mem_cons, List.not_mem_nil, or_false, not_or] at other
      rw [held, if_neg (fun carried => carried.2.1 dropped), lookup_converted]
      simp [other]
    case others =>
      intro key other notDropped
      simp only [List.mem_cons, List.not_mem_nil, or_false, not_or] at other
      by_cases proto : key = "__proto__"
      · rw [proto, ofOrdinary, convertible.ordinary]
      · rw [held, lookup_converted]
        cases (properties action).lookup key <;> simp [other, notDropped, proto]

end Actions

/-! One service. -/
section Services

variable {textOf : Json → String}

theorem is_array_iff (value : Option Json) : isArray value = true ↔ ∃ items, value = some (.array items) := by
  unfold isArray
  split <;> simp_all

/-- A list of actions is left as it was. -/
theorem array_kept_iff {service : String × Fields} {items : List Json} (isList : service.2.lookup "actionList" = some (.array items)) :
    ServiceKept textOf service service ↔ Unmixed textOf service.2 := by
  unfold Unmixed
  rw [isList]
  constructor
  · intro kept
    obtain ⟨same, isSame, kept'⟩ := kept.actions
    rw [isList] at isSame
    cases isSame
    unfold ActionsKept at kept'
    rw [isList] at kept'
    refine ⟨by simpa using kept.others "serviceStateTable" (by decide), ?_⟩
    intro item member key dropped
    have itemKept : ItemKept item item := by
      have all := List.forall₂_same.mp kept'
      exact all item member
    simpa [dropped] using itemKept key
  · rintro ⟨noTable, noRetired⟩
    refine ⟨rfl, ⟨items, isList, ?_⟩, ?_⟩
    · unfold ActionsKept
      rw [isList]
      refine List.forall₂_same.mpr fun item member key => ?_
      split
      · rename_i dropped
        exact noRetired item member key dropped
      · rfl
    · intro key _
      split
      · rename_i isTable
        rw [isTable, noTable]
      · rfl

/-- Where each pair meets `Kept` on a condition on its first part, all do on that condition. -/
theorem all_kept_iff {Old New : Type} {Made Kept : Old → New → Prop} {Condition : Old → Prop} {old : List Old} {new : List New}
    (each : List.Forall₂ Made old new) (one : ∀ first second, Made first second → (Kept first second ↔ Condition first)) :
    List.Forall₂ Kept old new ↔ ∀ first ∈ old, Condition first := by
  induction each with
  | nil => simp
  | cons made _ ih => rw [List.forall₂_cons, List.forall_mem_cons, ih, one _ _ made]

/-- The new actions of a service whose actions were no list. -/
theorem actions_kept_iff {service : Fields} {place : String → String} {actions : List Json}
    (notList : ∀ items, service.lookup "actionList" ≠ some (.array items))
    (ran : ((properties ((service.lookup "actionList").getD .null)).mapM fun action =>
      migrateAction textOf action.1 action.2 (service.lookup "serviceStateTable") (place action.1)) = .ok actions) :
    ActionsKept textOf service actions ↔ Unmixed textOf service := by
  have unmixed : Unmixed textOf service ↔ ∀ action ∈ properties ((service.lookup "actionList").getD .null),
      Convertible textOf (service.lookup "serviceStateTable") action.2 := by
    unfold Unmixed
    split
    · rename_i items isItems
      exact absurd isItems (notList items)
    · rfl
  have kept : ActionsKept textOf service actions ↔ List.Forall₂ (fun action item => ∃ fields, item = .object fields ∧
      ActionKept textOf (service.lookup "serviceStateTable") action.1 action.2 fields)
      (properties ((service.lookup "actionList").getD .null)) actions := by
    unfold ActionsKept
    split
    · rename_i items isItems
      exact absurd isItems (notList items)
    · rfl
  rw [kept, unmixed]
  exact all_kept_iff (mapM_ok_iff.mp ran) fun _ _ made => migrate_action_kept made

theorem migrate_service_kept {label : String} {service migrated : String × Fields}
    (done : migrateService textOf label service = .ok migrated) :
    ServiceKept textOf service migrated ↔ Unmixed textOf service.2 := by
  unfold migrateService at done
  split at done
  · rename_i isList
    cases done
    obtain ⟨items, isItems⟩ := (is_array_iff _).mp isList
    exact array_kept_iff isItems
  · rename_i notList
    have noItems : ∀ items, service.2.lookup "actionList" ≠ some (.array items) := by
      intro items isItems
      exact notList ((is_array_iff _).mpr ⟨items, isItems⟩)
    cases ran : (properties ((service.2.lookup "actionList").getD .null)).mapM fun action =>
        migrateAction textOf action.1 action.2 (service.2.lookup "serviceStateTable") (label ++ service.1 ++ "/" ++ action.1) with
    | error message => simp [ran, bind, Except.bind] at done
    | ok actions =>
        simp only [ran, bind, Except.bind, Except.ok.injEq] at done
        subst done
        rw [← @actions_kept_iff textOf service.2 (fun name => label ++ service.1 ++ "/" ++ name) actions noItems ran]
        -- the rest of the service is kept whatever its actions are
        constructor
        · intro kept
          obtain ⟨items, isItems, itemsKept⟩ := kept.actions
          have same : items = actions := by simpa [lookup_deleteKey, lookup_setKey, eq_comm] using isItems
          exact same ▸ itemsKept
        · intro actionsKept
          refine ⟨rfl, ⟨actions, by simp [lookup_deleteKey, lookup_setKey], actionsKept⟩, ?_⟩
          intro key other
          simp [lookup_deleteKey, lookup_setKey, other]

end Services

/-! The whole spec. -/
section Specs

variable {textOf : Json → String}

theorem kept_new_format {old new : String × Fields} (kept : ServiceKept textOf old new) :
    ((present new.2 "serviceStateTable").isSome || !isArray (new.2.lookup "actionList")) = false := by
  obtain ⟨items, isItems, _⟩ := kept.actions
  have noTable : new.2.lookup "serviceStateTable" = none := by simpa using kept.others "serviceStateTable" (by decide)
  simp [present, noTable, isItems, isArray]

theorem kept_services_new {old new : List (String × Fields)} (kept : List.Forall₂ (ServiceKept textOf) old new) :
    ∀ service ∈ new, ((present service.2 "serviceStateTable").isSome || !isArray (service.2.lookup "actionList")) = false := by
  induction kept with
  | nil => simp
  | cons first _ ih => exact List.forall_mem_cons.mpr ⟨kept_new_format first, ih⟩

/--
The migration preserves a spec exactly when no service of it mixes the formats: no list of actions
with a state table or a retired key, and no other action with a pointer besides that of its argument.
-/
theorem migration_preserves_iff (textOf : Json → String) (label : String) (spec out : Spec) (old : isOldFormat spec = true)
    (done : migrate textOf spec label = .ok out) :
    Preserved textOf spec out ↔ ∀ service ∈ spec.services, Unmixed textOf service.2 := by
  unfold migrate at done
  rw [if_pos old] at done
  cases ran : spec.services.mapM (migrateService textOf (if label = "" then "" else label ++ " ")) with
  | error message => simp [ran, bind, Except.bind] at done
  | ok services =>
      simp only [ran, bind, Except.bind, Except.ok.injEq] at done
      subst done
      have isServices : ∀ rest, Spec.services ⟨rest, spec.device.map fun device =>
          ⟨device.rest, device.serviceList.map fun _ => services⟩⟩ = services := by
        intro rest
        unfold isOldFormat Spec.services at old
        cases isDevice : spec.device with
        | none => simp [isDevice] at old
        | some device =>
            cases isList : device.serviceList with
            | none => simp [isDevice, isList] at old
            | some services => simp [Spec.services, isList]
      have kept : List.Forall₂ (ServiceKept textOf) spec.services services ↔ ∀ service ∈ spec.services, Unmixed textOf service.2 :=
        all_kept_iff (mapM_ok_iff.mp ran) fun _ _ made => migrate_service_kept made
      rw [← kept]
      constructor
      · intro preserved
        have isKept := preserved.services
        rwa [isServices] at isKept
      · intro all
        have newFormat : ∀ rest, isOldFormat ⟨rest, spec.device.map fun device =>
            ⟨device.rest, device.serviceList.map fun _ => services⟩⟩ = false := by
          intro rest
          unfold isOldFormat
          rw [isServices, List.any_eq_false]
          intro service member
          rw [kept_services_new all service member]
          exact Bool.false_ne_true
        refine ⟨newFormat _, ?_, ?_, ?_, ?_⟩
        · intro label
          rw [migrate, newFormat]
          rfl
        · rwa [isServices]
        · cases spec.device <;> rfl
        · intro key
          by_cases isConfig : key = "configId" <;> by_cases isVersion : key = "specVersion" <;>
            simp [lookup_deleteKey, isConfig, isVersion]

/-- A device with one service. -/
def deviceOf (service : Fields) : Spec :=
  ⟨[("specVersion", .string "1.0")], some ⟨[("friendlyName", .string "Echo")], some [("urn:example-com:serviceID:echo", service)]⟩⟩

/-- `echo`, whose input is the state variable `text`. -/
def echoService : Fields :=
  [("actionList", .object [("echo", .object [("argumentList",
      .object [("input", .object [("relatedStateVariable", .string "text")])])])]),
    ("serviceStateTable", .object [("text", .object [("schema", .string "/echo/input")])])]

theorem echo_migrates :
    Preserved (fun _ => "") (deviceOf echoService)
      (.mk [] (some ⟨[("friendlyName", .string "Echo")], some [("urn:example-com:serviceID:echo",
        [("actionList", .array [.object [("name", .string "echo"), ("input", .object [("schema", .string "/echo/input")])]])])]⟩)) := by
  refine (migration_preserves_iff (fun _ => "") "" (deviceOf echoService) _ rfl rfl).mpr ?_
  intro service member
  obtain rfl := List.mem_singleton.mp member
  intro action listed
  obtain rfl := List.mem_singleton.mp listed
  exact ⟨nofun, nofun, rfl⟩

/-- A service with a list of actions and a state table is passed over, and is of the old format still. -/
theorem table_beside_list_stays :
    let spec := deviceOf [("actionList", .array []), ("serviceStateTable", .object [])]
    isOldFormat spec = true ∧ ∃ out, migrate (fun _ => "") spec "" = .ok out ∧ ¬ Preserved (fun _ => "") spec out := by
  refine ⟨rfl, _, rfl, ?_⟩
  intro preserved
  exact absurd preserved.newFormat (by decide)

end Specs

end Countinghouse.SpecMigration
