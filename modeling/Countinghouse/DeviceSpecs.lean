import Countinghouse.ToolRegistry

/-!
The api.json of a module, as `validateDeviceSpec` of lib/validator.js accepts it: the parts of
spec/schema.json about services and actions, and the check for repeated action names. The
other fields of the device do not bear on these.
-/

namespace Countinghouse.DeviceSpecs

open PlainObject
open ToolRegistry (isSpace)

/-! Specs. -/
section Specs

/-- The three schema-bearing keys hold pointers, `{schema: pointer}`. -/
structure ActionSpec where
  name : String
  description : Option String
  input : Option String
  output : Option String
  fault : Option String
  deriving DecidableEq

structure ServiceSpec where
  actionList : List ActionSpec
  deriving DecidableEq

/-- `device` of the spec. -/
structure DeviceSpec where
  friendlyName : String
  serviceList : Option (Table ServiceSpec)
  deriving DecidableEq

/-- The services that a `for in` goes through. -/
def DeviceSpec.services (spec : DeviceSpec) : Table ServiceSpec := spec.serviceList.getD []

/-- The spec as the tool registry reads it. -/
def DeviceSpec.registered (spec : DeviceSpec) : ToolRegistry.DeviceSpec :=
  ⟨some spec.friendlyName, spec.serviceList.map fun services => services.map fun service =>
    ⟨service.1, some (service.2.actionList.map fun action => ⟨action.name, action.description, action.output⟩)⟩⟩

end Specs

/-! spec/schema.json -/
section MetaSchema

/-- `[\S]{1,most}` -/
def isWord (most : Nat) (text : List Char) : Bool :=
  1 ≤ text.length && text.length ≤ most && text.all fun c => !isSpace c

/-- `^urn:[\S]{1,64}:serviceID:[\S]{1,64}$` -/
def isServiceID (serviceID : String) : Bool :=
  serviceID.toList.take 4 = "urn:".toList &&
    (List.range 64).any fun place =>
      let vendor := (serviceID.toList.drop 4).take (place + 1)
      let rest := (serviceID.toList.drop 4).drop (place + 1)
      isWord 64 vendor && rest.take 11 = ":serviceID:".toList && isWord 64 (rest.drop 11)

/-- `^[\S]{1,128}$` -/
def isActionName (name : String) : Bool := isWord 128 name.toList

def isPointer (pointer : Option String) : Bool := pointer.all fun text => 1 ≤ text.length && text.length ≤ 1024

def isAction (action : ActionSpec) : Bool :=
  isActionName action.name && (action.description.all fun text => 1 ≤ text.length && text.length ≤ 4096) &&
    isPointer action.input && isPointer action.output && isPointer action.fault

def isService (service : ServiceSpec) : Bool := service.actionList.length ≤ 64 && service.actionList.all isAction

/-- `deviceSchemaValidator(spec)` -/
def meetsMetaSchema (spec : DeviceSpec) : Bool :=
  spec.friendlyName.length ≤ 64 && spec.services.length ≤ 32 &&
    spec.services.all fun service => isServiceID service.1 && isService service.2

end MetaSchema

/-! `validateDeviceSpec` -/
section Validation

/-- `seen[name] = true`, on an object that holds nothing else. What `__proto__` is set to has to be an object. -/
def markSeen (seen : List String) (name : String) : List String := if name = "__proto__" then seen else name :: seen

/-- The first name that is seen again. -/
def firstRepeated (seen : List String) : List String → Option String
  | [] => none
  | name :: names => if name ∈ seen then some name else firstRepeated (markSeen seen name) names

inductive SpecError where
  | metaSchema
  /-- `duplicate action name. Service: ${serviceID}, action: ${actionName}` -/
  | duplicateAction (serviceID actionName : String)
  deriving DecidableEq

def duplicateAction : Table ServiceSpec → Option SpecError
  | [] => none
  | (serviceID, service) :: rest =>
      match firstRepeated [] (service.actionList.map ActionSpec.name) with
      | some actionName => some (.duplicateAction serviceID actionName)
      | none => duplicateAction rest

/-- What the callback is called with. -/
def validateDeviceSpec (spec : DeviceSpec) : Option SpecError :=
  if meetsMetaSchema spec then duplicateAction spec.services else some .metaSchema

/-- The spec is accepted; its services have different keys, as properties of one object do. -/
structure Accepted (spec : DeviceSpec) : Prop where
  keys : (spec.services.map Prod.fst).Nodup
  valid : validateDeviceSpec spec = none

instance (spec : DeviceSpec) : Decidable (Accepted spec) :=
  decidable_of_iff ((spec.services.map Prod.fst).Nodup ∧ validateDeviceSpec spec = none)
    ⟨fun accepted => ⟨accepted.1, accepted.2⟩, fun accepted => ⟨accepted.keys, accepted.valid⟩⟩

end Validation

/-! What is known of a spec that was accepted. -/
section Accepting

variable {spec : DeviceSpec} {service : String × ServiceSpec} {action : ActionSpec}

theorem accepted_meets (accepted : Accepted spec) : meetsMetaSchema spec = true := by
  have valid := accepted.valid
  unfold validateDeviceSpec at valid
  split at valid
  · assumption
  · cases valid

theorem accepted_service (accepted : Accepted spec) (member : service ∈ spec.services) :
    isServiceID service.1 = true ∧ isService service.2 = true := by
  have meets := accepted_meets accepted
  simp only [meetsMetaSchema, Bool.and_eq_true, List.all_eq_true] at meets
  exact meets.2 service member

/-- Names other than `__proto__` are seen once. -/
theorem first_repeated_count (names : List String) :
    ∀ seen, firstRepeated seen names = none → ∀ name, name ≠ "__proto__" →
      names.count name ≤ 1 ∧ (name ∈ seen → name ∉ names) := by
  induction names with
  | nil => simp
  | cons first rest ih =>
      intro seen none name isName
      unfold firstRepeated at none
      split at none
      · cases none
      · rename_i fresh
        obtain ⟨once, apart⟩ := ih _ none name isName
        by_cases same : first = name
        · subst same
          have absent : first ∉ rest := apart (by simp [markSeen, isName])
          simp [List.count_eq_zero_of_not_mem absent, fresh]
        · refine ⟨by simpa [List.count_cons, same] using once, ?_⟩
          intro inSeen
          have later : name ∈ markSeen seen first := by
            unfold markSeen
            split <;> simp [inSeen]
          simpa [Ne.symm same] using apart later

theorem duplicate_none {services : Table ServiceSpec} (none : duplicateAction services = none) :
    ∀ service ∈ services, firstRepeated [] (service.2.actionList.map ActionSpec.name) = .none := by
  induction services with
  | nil => simp
  | cons first rest ih =>
      unfold duplicateAction at none
      split at none
      · cases none
      · rename_i isNone
        intro service member
        rcases List.mem_cons.mp member with rfl | later
        · exact isNone
        · exact ih none service later

/-- No action of a service has the name of another one, unless it is `__proto__`. -/
theorem accepted_names (accepted : Accepted spec) (member : service ∈ spec.services) {name : String}
    (isName : name ≠ "__proto__") : (service.2.actionList.map ActionSpec.name).count name ≤ 1 := by
  have valid := accepted.valid
  unfold validateDeviceSpec at valid
  rw [if_pos (accepted_meets accepted)] at valid
  exact (first_repeated_count _ [] (duplicate_none valid service member) name isName).1

/-- A service id begins with `urn:`, so it is no name of `Object.prototype`. -/
theorem service_id_not_inherited {serviceID : String} (isID : isServiceID serviceID = true) :
    serviceID ∉ inheritedNames := by
  have apart : ∀ name ∈ inheritedNames, name.toList.take 4 ≠ "urn:".toList := by decide
  simp only [isServiceID, Bool.and_eq_true, decide_eq_true_eq] at isID
  exact fun inherited => apart serviceID inherited isID.1

end Accepting

end Countinghouse.DeviceSpecs
