import Countinghouse.ActionCalls
import Countinghouse.DeviceSpecs

/-!
The actions of the devices in one process: lib/countinghouse-device.js and lib/service.js from the
loading of a spec to the call of a handler. A name that an object does not have is looked up in
`Object.prototype`, which all objects of the process share; what `setAction` sets there is `builtin`.
-/

namespace Countinghouse.DeviceActions

open PlainObject ActionCalls DeviceSpecs

/-! Devices. -/
section Devices

/-- An action of a service; the schemas are resolved. -/
structure Action (Doc Handler : Type) where
  name : String
  invoke : Option Handler
  input : Option (SchemaObj Doc)
  output : Option (SchemaObj Doc)
  fault : Option (SchemaObj Doc)

/-- The services of a device, unless the spec had no list of them, and the actions of each. -/
abbrev Services (Doc Handler : Type) := Option (Table (Table (Action Doc Handler)))

structure World (Doc Handler : Type) where
  devices : Table (Services Doc Handler)
  /-- `Object.prototype[name].invoke`, and for `__proto__` that of `Object.prototype` itself. -/
  builtin : Table Handler

def World.empty (Doc Handler : Type) : World Doc Handler := ⟨[], []⟩

def World.put {Doc Handler : Type} (world : World Doc Handler) (deviceID : String) (services : Services Doc Handler) :
    World Doc Handler :=
  { world with devices := setKey world.devices deviceID services }

variable {Doc Handler : Type}

-- what a module's schema.json has for a pointer, compiled
variable (resolve : DeviceSpec → String → SchemaObj Doc) (spec : DeviceSpec)

def actionOf (action : ActionSpec) (invoke : Option Handler) : Action Doc Handler :=
  ⟨action.name, invoke, action.input.map (resolve spec), action.output.map (resolve spec), action.fault.map (resolve spec)⟩

/-- One turn of the loop of `updateSpec`. A name of `Object.prototype` is there already. -/
def addAction (actions : Table (Action Doc Handler)) (action : ActionSpec) : Table (Action Doc Handler) :=
  match get actions action.name with
  | .undefined => setKey actions action.name (actionOf resolve spec action none)
  | _ => actions

def updateSpec (actions : Table (Action Doc Handler)) (service : ServiceSpec) : Table (Action Doc Handler) :=
  service.actionList.foldl (addAction resolve spec) actions

/-- One turn of the loop of `initServices`. What `Object.prototype` has is no service, and throws. -/
def addService (services : Table (Table (Action Doc Handler))) (service : String × ServiceSpec) :
    Option (Table (Table (Action Doc Handler))) :=
  match get services service.1 with
  | .own actions => some (setKey services service.1 (updateSpec resolve spec actions service.2))
  | .inherited => none
  | .undefined => some (setKey services service.1 (updateSpec resolve spec [] service.2))

/-- `none` is an exception. -/
def initServices : Option (Services Doc Handler) :=
  match spec.serviceList with
  | none => some none
  | some serviceList => (serviceList.foldlM (addService resolve spec) []).map some

end Devices

/-! Setting and calling actions. -/
section Actions

variable {Doc Handler : Type}

inductive Outcome (Doc Handler : Type) where
  /-- The error that is answered, what it is about, and its fault. -/
  | answered (code : String) (about : List String) (fault : Option (String × String))
  /-- `doActionCall` is called. -/
  | runs (handler : Handler) (args : Arguments Doc)
  /-- An exception. -/
  | threw

/-- The handler is set, where an own property or one of `Object.prototype` is found. -/
def setAction (world : World Doc Handler) (deviceID serviceID actionName : String) (handler : Option Handler) : World Doc Handler :=
  match handler, world.devices.lookup deviceID with
  | some handler, some (some services) =>
      match get services serviceID with
      | .own actions =>
          match get actions actionName with
          | .own action =>
              world.put deviceID (some (setKey services serviceID (setKey actions actionName { action with invoke := some handler })))
          | .inherited => { world with builtin := setKey world.builtin actionName handler }
          | .undefined => world
      | _ => world
  | _, _ => world

/-- The argument object with what a `for in` finds in `Object.prototype`. -/
def withInherited (world : World Doc Handler) : Arguments Doc → Arguments Doc
  | .value plain fields further =>
      .value plain (fields ++ if (world.builtin.lookup "__proto__").isSome then [("invoke", .bare true)] else []) further
  | args => args

/-- The rest of `invokeAction`, for the properties of an action. -/
def invokeWith (world : World Doc Handler) (actionName : String) (invoke : Option Handler) (input : Option (SchemaObj Doc))
    (args : Arguments Doc) : Outcome Doc Handler :=
  match args with
  | .nullish => .answered "INPUT_NOT_FOUND" [] none
  | args =>
      match invoke with
      | none => .answered "ACTION_NOT_IMPLEMENTED" [actionName] none
      | some handler =>
          match validateActionCall input (withInherited world args) true with
          | .passed => .runs handler args
          | .failed code fault => .answered code [] fault
          | .threw => .threw

/-- `Service.prototype.invokeAction` -/
def invokeAction (world : World Doc Handler) (actions : Table (Action Doc Handler)) (actionName : String) (args : Arguments Doc) :
    Outcome Doc Handler :=
  match get actions actionName with
  | .own action => invokeWith world actionName action.invoke action.input args
  | .inherited =>
      invokeWith world actionName ((world.builtin.lookup actionName).or (world.builtin.lookup "__proto__")) none args
  | .undefined => .answered "ACTION_NOT_FOUND" [actionName] none

def deviceControl (world : World Doc Handler) (services : Services Doc Handler) (serviceID actionName : String)
    (args : Arguments Doc) : Outcome Doc Handler :=
  match services with
  | none => .threw
  | some services =>
      match get services serviceID with
      | .own actions => invokeAction world actions actionName args
      | .inherited => .threw
      | .undefined => .answered "SERVICE_NOT_FOUND" [serviceID] none

/-- `deviceControl` of the device of that id. -/
def control (world : World Doc Handler) (deviceID serviceID actionName : String) (args : Arguments Doc) :
    Option (Outcome Doc Handler) :=
  (world.devices.lookup deviceID).map fun services => deviceControl world services serviceID actionName args

end Actions

/-! Runs. -/
section Runs

variable {Doc Handler : Type}

inductive Event (Doc Handler : Type) where
  | load (spec : DeviceSpec) (accepted : Accepted spec)
  /-- `none` is what is no function. -/
  | setAction (deviceID serviceID actionName : String) (handler : Option Handler)
  | call (deviceID serviceID actionName : String) (args : Arguments Doc)

variable (deviceIDForName : String → String) (resolve : DeviceSpec → String → SchemaObj Doc)

def step (world : World Doc Handler) : Event Doc Handler → World Doc Handler
  | .load spec _ =>
      match initServices resolve spec with
      | some services => world.put (deviceIDForName spec.friendlyName) services
      | none => world
  | .setAction deviceID serviceID actionName handler => setAction world deviceID serviceID actionName handler
  | .call _ _ _ _ => world

def run (events : List (Event Doc Handler)) : World Doc Handler :=
  events.foldl (step deviceIDForName resolve) (World.empty Doc Handler)

/-- The spec that was last loaded for the id. -/
def loaded (deviceID : String) (events : List (Event Doc Handler)) : Option DeviceSpec :=
  events.foldl (fun last event =>
    match event with
    | .load spec _ => if deviceIDForName spec.friendlyName = deviceID then some spec else last
    | _ => last) none

/-- The handler that was last set for the action, since its device was loaded. -/
def assigned (deviceID serviceID actionName : String) (events : List (Event Doc Handler)) : Option Handler :=
  events.foldl (fun last event =>
    match event with
    | .load spec _ => if deviceIDForName spec.friendlyName = deviceID then none else last
    | .setAction device service action (some handler) =>
        if device = deviceID ∧ service = serviceID ∧ action = actionName then some handler else last
    | _ => last) none

end Runs

/-! The property. -/
section Serving

variable {Doc Handler : Type}

def declared (spec : DeviceSpec) (serviceID actionName : String) : Option ActionSpec :=
  (spec.services.lookup serviceID).bind fun service => service.actionList.find? fun action => action.name = actionName

/-- The handler runs after the arguments were validated against the schema. -/
def servedBy (input : Option (SchemaObj Doc)) (handler : Handler) (args : Arguments Doc) : Outcome Doc Handler :=
  match args with
  | .nullish => .answered "INPUT_NOT_FOUND" [] none
  | args =>
      match validateActionCall input args true with
      | .passed => .runs handler args
      | .failed code fault => .answered code [] fault
      | .threw => .threw

/-- What a call of a device with that spec comes to. -/
def Served (resolve : DeviceSpec → String → SchemaObj Doc) (spec : DeviceSpec) (handler : Option Handler)
    (serviceID actionName : String) (args : Arguments Doc) (outcome : Option (Outcome Doc Handler)) : Prop :=
  match declared spec serviceID actionName with
  | some action => ∀ own, handler = some own → outcome = some (servedBy (action.input.map (resolve spec)) own args)
  | none => outcome = some (.answered "SERVICE_NOT_FOUND" [serviceID] none) ∨
      outcome = some (.answered "ACTION_NOT_FOUND" [actionName] none)

/-- The spec has services, and no action of them is named as a property of `Object.prototype`. -/
def OrdinarySpec (spec : DeviceSpec) : Prop :=
  spec.serviceList.isSome = true ∧ ∀ service ∈ spec.services, ∀ action ∈ service.2.actionList, action.name ∉ inheritedNames

def Ordinary : Event Doc Handler → Prop
  | .load spec _ => OrdinarySpec spec
  | .setAction _ _ actionName _ => actionName ∉ inheritedNames
  | .call _ _ _ _ => True

/-- No name of the call that is looked up is one of `Object.prototype`. -/
def OrdinaryCall (spec : DeviceSpec) (serviceID actionName : String) : Prop :=
  serviceID ∉ inheritedNames ∧ ((spec.services.lookup serviceID).isSome = true → actionName ∉ inheritedNames)

/-- The action that an event sets or runs. -/
def target : Event Doc Handler → Option (String × String × String)
  | .load _ _ => none
  | .setAction deviceID serviceID actionName _ | .call deviceID serviceID actionName _ => some (deviceID, serviceID, actionName)

end Serving

/-! Loading. -/
section Loading

variable {Doc Handler : Type} {resolve : DeviceSpec → String → SchemaObj Doc} {spec : DeviceSpec}

theorem get_ordinary {Value : Type} (table : Table Value) {key : String} (ordinary : key ∉ inheritedNames) :
    get table key = ((table.lookup key).map Slot.own).getD .undefined := by
  cases found : table.lookup key with
  | none => exact get_undefined found ordinary
  | some value => exact get_own found

theorem get_congr {Value : Type} {table other : Table Value} {key : String} (same : table.lookup key = other.lookup key) :
    get table key = get other key := by
  unfold PlainObject.get
  rw [same]

theorem update_lookup (list : List ActionSpec) (ordinary : ∀ action ∈ list, action.name ∉ inheritedNames) (actionName : String) :
    ∀ actions : Table (Action Doc Handler), (list.foldl (addAction resolve spec) actions).lookup actionName =
      (actions.lookup actionName).or ((list.find? fun action => action.name = actionName).map fun action =>
        actionOf resolve spec action none) := by
  induction list with
  | nil => simp
  | cons first rest ih =>
      intro actions
      rw [List.foldl_cons, ih (fun action member => ordinary action (List.mem_cons_of_mem _ member))]
      unfold addAction
      rw [get_ordinary _ (ordinary first List.mem_cons_self)]
      by_cases same : first.name = actionName
      · subst same
        cases found : actions.lookup first.name <;> simp [found, lookup_setKey]
      · have differs : ¬ actionName = first.name := fun equal => same equal.symm
        cases found : actions.lookup first.name <;> simp [lookup_setKey, same, differs]

theorem init_lookup (list : Table ServiceSpec) : ∀ services : Table (Table (Action Doc Handler)),
    (list.map Prod.fst).Nodup → (∀ service ∈ list, service.1 ∉ inheritedNames ∧ services.lookup service.1 = none) →
      ∃ after, list.foldlM (addService resolve spec) services = some after ∧
        ∀ serviceID, after.lookup serviceID =
          (services.lookup serviceID).or ((list.lookup serviceID).map (updateSpec resolve spec [])) := by
  induction list with
  | nil => intro services _ _; exact ⟨services, rfl, by simp⟩
  | cons first rest ih =>
      obtain ⟨first, spec'⟩ := first
      intro services nodup apart
      simp only [List.map_cons, List.nodup_cons] at nodup
      obtain ⟨ordinary, fresh⟩ := apart (first, spec') List.mem_cons_self
      have added : addService resolve spec services (first, spec') = some (setKey services first (updateSpec resolve spec [] spec')) := by
        unfold addService
        rw [get_undefined fresh ordinary]
      have apartLater : ∀ service ∈ rest, service.1 ∉ inheritedNames ∧
          (setKey services first (updateSpec resolve spec [] spec')).lookup service.1 = none := by
        intro service member
        obtain ⟨isOrdinary, absent⟩ := apart service (List.mem_cons_of_mem _ member)
        have other : service.1 ≠ first := fun same => nodup.1 (List.mem_map.mpr ⟨service, member, same⟩)
        exact ⟨isOrdinary, by rw [lookup_setKey, if_neg other, absent]⟩
      obtain ⟨after, done, held⟩ := ih _ nodup.2 apartLater
      refine ⟨after, ?_, ?_⟩
      · rw [List.foldlM_cons, added]
        exact done
      · intro serviceID
        rw [held, lookup_setKey]
        by_cases same : serviceID = first
        · subst same
          simp [fresh]
        · have differs : (serviceID == first) = false := by simpa using same
          simp [same, List.lookup_cons, differs]

/-- What a device is loaded with, at each name. -/
theorem services_loaded (accepted : Accepted spec) (ordinary : OrdinarySpec spec) :
    ∃ services : Table (Table (Action Doc Handler)), initServices resolve spec = some (some services) ∧
      ∀ serviceID, services.lookup serviceID = (spec.services.lookup serviceID).map (updateSpec resolve spec []) := by
  obtain ⟨hasList, _⟩ := ordinary
  obtain ⟨list, isList⟩ := Option.isSome_iff_exists.mp hasList
  have isServices : spec.services = list := by simp [DeviceSpec.services, isList]
  have apart : ∀ service ∈ list, service.1 ∉ inheritedNames ∧ ([] : Table (Table (Action Doc Handler))).lookup service.1 = none := by
    intro service member
    exact ⟨service_id_not_inherited (accepted_service accepted (isServices ▸ member)).1, rfl⟩
  obtain ⟨services, done, held⟩ := @init_lookup Doc Handler resolve spec list [] (isServices ▸ accepted.keys) apart
  refine ⟨services, ?_, ?_⟩
  · simp [initServices, isList, done]
  · intro serviceID
    rw [held, isServices]
    rfl

end Loading

/-! The actions of a device in the course of a run. -/
section Invariant

variable {Doc Handler : Type} {resolve : DeviceSpec → String → SchemaObj Doc}

/-- Each device has the actions of its spec, with the handlers that were assigned. -/
structure Holds (resolve : DeviceSpec → String → SchemaObj Doc) (world : World Doc Handler) (specs : String → Option DeviceSpec)
    (handlers : String → String → String → Option Handler) : Prop where
  builtin : world.builtin = []
  known : ∀ deviceID spec, specs deviceID = some spec → Accepted spec ∧ OrdinarySpec spec
  devices : ∀ deviceID, match specs deviceID with
    | none => world.devices.lookup deviceID = none
    | some spec => ∃ services, world.devices.lookup deviceID = some (some services) ∧
        ∀ serviceID, (services.lookup serviceID).isSome = (spec.services.lookup serviceID).isSome ∧
          ∀ actions, services.lookup serviceID = some actions → ∀ actionName, actions.lookup actionName =
            (declared spec serviceID actionName).map fun action =>
              actionOf resolve spec action (handlers deviceID serviceID actionName)

theorem declared_ordinary {spec : DeviceSpec} (ordinary : OrdinarySpec spec) {serviceID actionName : String} {action : ActionSpec}
    (found : declared spec serviceID actionName = some action) : actionName ∉ inheritedNames := by
  obtain ⟨service, isService, isAction⟩ := Option.bind_eq_some_iff.mp found
  have named : action.name = actionName := by simpa using List.find?_some isAction
  exact named ▸ ordinary.2 _ (lookup_mem isService) action (List.mem_of_find?_eq_some isAction)

/-- While nothing is set in `Object.prototype`, arguments have no properties besides their own. -/
theorem with_inherited_none {world : World Doc Handler} (builtin : world.builtin = []) (args : Arguments Doc) :
    withInherited world args = args := by
  cases args <;> simp [withInherited, builtin]

theorem invoke_served {world : World Doc Handler} (builtin : world.builtin = []) (actionName : String) (handler : Handler)
    (input : Option (SchemaObj Doc)) (args : Arguments Doc) :
    invokeWith world actionName (some handler) input args = servedBy input handler args := by
  cases args with
  | nullish => rfl
  | unreadable => rfl
  | value plain fields further =>
      unfold invokeWith servedBy
      simp only [with_inherited_none builtin]

theorem not_implemented {world : World Doc Handler} (actionName : String) (input : Option (SchemaObj Doc)) (args : Arguments Doc) :
    invokeWith world actionName none input args = .answered "INPUT_NOT_FOUND" [] none ∨
      invokeWith world actionName none input args = .answered "ACTION_NOT_IMPLEMENTED" [actionName] none := by
  cases args
  · exact .inl rfl
  · exact .inr rfl
  · exact .inr rfl

/-- The calls of a service that the device has. -/
theorem served_by_service {world : World Doc Handler} (builtin : world.builtin = []) {spec : DeviceSpec} (ordinary : OrdinarySpec spec)
    {serviceID : String} {actions : Table (Action Doc Handler)}
    {handler : Option Handler} {actionName : String} (args : Arguments Doc)
    (held : actions.lookup actionName = (declared spec serviceID actionName).map fun action => actionOf resolve spec action handler) :
    Served resolve spec handler serviceID actionName args (some (invokeAction world actions actionName args)) ↔
      actionName ∉ inheritedNames := by
  unfold Served invokeAction
  cases found : declared spec serviceID actionName with
  | some action =>
      have isOrdinary := declared_ordinary ordinary found
      rw [found] at held
      simp only [get_own held, isOrdinary, not_false_eq_true, iff_true]
      rintro own rfl
      exact congrArg some (invoke_served builtin actionName own _ args)
  | none =>
      rw [found] at held
      by_cases inherited : actionName ∈ inheritedNames
      · simp only [get_inherited held inherited, inherited, builtin, List.lookup_nil, Option.or_none, not_true_eq_false, iff_false]
        rcases @not_implemented Doc Handler world actionName none args with missing | idle
        · simp [missing]
        · simp [idle]
      · simp [get_undefined held inherited, inherited]

/-- The calls of an action in an ordinary run. -/
theorem served_iff {world : World Doc Handler} {specs : String → Option DeviceSpec}
    {handlers : String → String → String → Option Handler} (holds : Holds resolve world specs handlers) {deviceID : String}
    {spec : DeviceSpec} (isLoaded : specs deviceID = some spec) (serviceID actionName : String) (args : Arguments Doc) :
    Served resolve spec (handlers deviceID serviceID actionName) serviceID actionName args
      (control world deviceID serviceID actionName args) ↔ OrdinaryCall spec serviceID actionName := by
  obtain ⟨accepted, ordinary⟩ := holds.known deviceID spec isLoaded
  have ofDevice := holds.devices deviceID
  rw [isLoaded] at ofDevice
  obtain ⟨services, isDevice, each⟩ := ofDevice
  obtain ⟨known, actionsOf⟩ := each serviceID
  have same : control world deviceID serviceID actionName args =
      some (deviceControl world (some services) serviceID actionName args) := by simp [control, isDevice]
  rw [same]
  unfold OrdinaryCall deviceControl
  cases isService : services.lookup serviceID with
  | some actions =>
      rw [isService] at known
      have isKnown : (spec.services.lookup serviceID).isSome = true := known.symm
      obtain ⟨service, isSpec⟩ := Option.isSome_iff_exists.mp isKnown
      have isID := (accepted_service accepted (lookup_mem isSpec)).1
      simp only [get_own isService, isKnown, service_id_not_inherited isID, not_false_eq_true, true_and, forall_const]
      exact served_by_service holds.builtin ordinary args (actionsOf actions isService actionName)
  | none =>
      rw [isService] at known
      have unknown : spec.services.lookup serviceID = none := Option.isNone_iff_eq_none.mp (Option.isSome_eq_false_iff.mp known.symm)
      have undeclared : declared spec serviceID actionName = none := by simp [declared, unknown]
      unfold Served
      rw [undeclared]
      -- a name of `Object.prototype` is found there, and is a TypeError then
      by_cases inherited : serviceID ∈ inheritedNames
      · simp [get_inherited isService inherited, inherited]
      · simp [get_undefined isService inherited, inherited, unknown]

end Invariant

/-! What one event changes. -/
section Steps

variable {Doc Handler : Type} {resolve : DeviceSpec → String → SchemaObj Doc}

theorem lookup_put (world : World Doc Handler) (deviceID other : String) (services : Services Doc Handler) :
    (world.put deviceID services).devices.lookup other = if other = deviceID then some services else world.devices.lookup other :=
  lookup_setKey world.devices deviceID other services

/-- An ordinary action is set where the device has it, and nowhere else. -/
theorem set_action_cases (world : World Doc Handler) (deviceID serviceID : String) {actionName : String}
    (ordinary : actionName ∉ inheritedNames) (handler : Option Handler) :
    (setAction world deviceID serviceID actionName handler = world ∧ (handler = none ∨
      ∀ services actions, world.devices.lookup deviceID = some (some services) → services.lookup serviceID = some actions →
        actions.lookup actionName = none)) ∨
      ∃ own services actions action, handler = some own ∧ world.devices.lookup deviceID = some (some services) ∧
        services.lookup serviceID = some actions ∧ actions.lookup actionName = some action ∧
          setAction world deviceID serviceID actionName handler =
            world.put deviceID (some (setKey services serviceID (setKey actions actionName { action with invoke := some own }))) := by
  cases handler with
  | none => exact .inl ⟨rfl, .inl rfl⟩
  | some own =>
      cases isDevice : world.devices.lookup deviceID with
      | none => exact .inl ⟨by simp [setAction, isDevice], .inr nofun⟩
      | some services =>
          cases services with
          | none => exact .inl ⟨by simp [setAction, isDevice], .inr nofun⟩
          | some services =>
              cases isService : services.lookup serviceID with
              | none =>
                  refine .inl ⟨?_, .inr fun _ _ same found => ?_⟩
                  · by_cases inherited : serviceID ∈ inheritedNames
                    · simp [setAction, isDevice, get_inherited isService inherited]
                    · simp [setAction, isDevice, get_undefined isService inherited]
                  · cases same
                    cases isService.symm.trans found
              | some actions =>
                  cases isAction : actions.lookup actionName with
                  | none =>
                      refine .inl ⟨by simp [setAction, isDevice, get_own isService, get_undefined isAction ordinary], .inr ?_⟩
                      intro _ _ same found
                      cases same
                      cases isService.symm.trans found
                      exact isAction
                  | some action =>
                      exact .inr ⟨own, services, actions, action, rfl, rfl, isService, isAction,
                        by simp [setAction, isDevice, get_own isService, get_own isAction]⟩

/-- An action that is set is no other action's. -/
theorem set_action_apart (world : World Doc Handler) {deviceID serviceID actionName : String} (ordinary : actionName ∉ inheritedNames)
    (handler : Option Handler) {device service action : String}
    (other : (device, service, action) ≠ (deviceID, serviceID, actionName)) (args : Arguments Doc) :
    control (setAction world deviceID serviceID actionName handler) device service action args = control world device service action args := by
  rcases set_action_cases world deviceID serviceID ordinary handler with
    ⟨same, _⟩ | ⟨own, services, actions, held, _, isDevice, isService, isAction, changed⟩
  · rw [same]
  · rw [changed]
    unfold control
    rw [lookup_put]
    by_cases sameDevice : device = deviceID
    · subst sameDevice
      rw [if_pos rfl, isDevice]
      simp only [Option.map_some, Option.some.injEq, deviceControl]
      by_cases sameService : service = serviceID
      · subst sameService
        have set : (setKey services service (setKey actions actionName { held with invoke := some own })).lookup service =
            some (setKey actions actionName { held with invoke := some own }) := by rw [lookup_setKey, if_pos rfl]
        have differs : action ≠ actionName := fun sameAction => other (by rw [sameAction])
        have kept : (setKey actions actionName { held with invoke := some own }).lookup action = actions.lookup action := by
          rw [lookup_setKey, if_neg differs]
        simp only [get_own set, get_own isService, invokeAction, get_congr kept]
        rfl
      · have kept : (setKey services serviceID (setKey actions actionName { held with invoke := some own })).lookup service =
            services.lookup service := by rw [lookup_setKey, if_neg sameService]
        rw [get_congr kept]
        rfl
    · rw [if_neg sameDevice]
      rfl

variable {world : World Doc Handler} {specs : String → Option DeviceSpec} {handlers : String → String → String → Option Handler}

/-- A handler for an action that the device does not have makes no difference to it. -/
theorem absent_holds (holds : Holds resolve world specs handlers) {deviceID serviceID actionName : String} (own : Handler)
    (absent : ∀ services actions, world.devices.lookup deviceID = some (some services) → services.lookup serviceID = some actions →
      actions.lookup actionName = none) :
    Holds resolve world specs fun device service action =>
      if deviceID = device ∧ serviceID = service ∧ actionName = action then some own else handlers device service action := by
  refine ⟨holds.builtin, holds.known, fun device => ?_⟩
  have before := holds.devices device
  cases isSpec : specs device with
  | none => simpa [isSpec] using before
  | some spec =>
      simp only [isSpec] at before ⊢
      obtain ⟨services, isDevice, each⟩ := before
      refine ⟨services, isDevice, fun service => ⟨(each service).1, fun actions isService action => ?_⟩⟩
      rw [(each service).2 actions isService action]
      by_cases its : deviceID = device ∧ serviceID = service ∧ actionName = action
      · obtain ⟨rfl, rfl, rfl⟩ := its
        -- the device has what is declared, so this action is not declared
        have undeclared := (each serviceID).2 actions isService actionName
        rw [absent services actions isDevice isService, eq_comm, Option.map_eq_none_iff] at undeclared
        rw [undeclared]
        rfl
      · simp only [its, if_false]

/-- The handler goes to the action, and to no other service or device. -/
theorem put_holds (holds : Holds resolve world specs handlers) {deviceID serviceID actionName : String} (own : Handler)
    {services : Table (Table (Action Doc Handler))} {actions : Table (Action Doc Handler)} {action : Action Doc Handler}
    (isDevice : world.devices.lookup deviceID = some (some services)) (isService : services.lookup serviceID = some actions)
    (isAction : actions.lookup actionName = some action) :
    Holds resolve
      (world.put deviceID (some (setKey services serviceID (setKey actions actionName { action with invoke := some own })))) specs
      fun device service action =>
        if deviceID = device ∧ serviceID = service ∧ actionName = action then some own else handlers device service action := by
  refine ⟨holds.builtin, holds.known, fun device => ?_⟩
  have before := holds.devices device
  rw [lookup_put]
  by_cases sameDevice : device = deviceID
  · subst sameDevice
    cases isSpec : specs device with
    | none => simp [isSpec, isDevice] at before
    | some spec =>
        simp only [isSpec, isDevice, if_true] at before ⊢
        obtain ⟨_, same, each⟩ := before
        cases same
        refine ⟨_, rfl, fun service => ?_⟩
        rw [lookup_setKey]
        by_cases sameService : service = serviceID
        · subst sameService
          obtain ⟨known, isActions⟩ := each service
          rw [isService] at known
          refine ⟨by rw [if_pos rfl]; exact known, fun after isAfter action => ?_⟩
          rw [if_pos rfl] at isAfter
          cases isAfter
          rw [lookup_setKey]
          have declares := isActions actions isService action
          by_cases sameAction : action = actionName
          · subst sameAction
            rw [isAction] at declares
            obtain ⟨its, isDeclared, isHeld⟩ := Option.map_eq_some_iff.mp declares.symm
            simp only [if_true, isDeclared, Option.map_some, true_and]
            rw [← isHeld]
            rfl
          · have differs : ¬ actionName = action := fun equal => sameAction equal.symm
            simpa only [sameAction, differs, and_false, if_false] using declares
        · have differs : ¬ serviceID = service := fun equal => sameService equal.symm
          simpa only [sameService, differs, false_and, and_false, if_false] using each service
  · have differs : ¬ deviceID = device := fun equal => sameDevice equal.symm
    simpa only [sameDevice, differs, false_and, if_false] using before

theorem set_action_holds (holds : Holds resolve world specs handlers) (deviceID serviceID : String) {actionName : String}
    (ordinary : actionName ∉ inheritedNames) (own : Handler) :
    Holds resolve (setAction world deviceID serviceID actionName (some own)) specs fun device service action =>
      if deviceID = device ∧ serviceID = service ∧ actionName = action then some own else handlers device service action := by
  rcases set_action_cases world deviceID serviceID ordinary (some own) with
    ⟨same, never | absent⟩ | ⟨_, services, actions, held, isOwn, isDevice, isService, isAction, changed⟩
  · cases never
  · rw [same]
    exact absent_holds holds own absent
  · cases isOwn
    rw [changed]
    exact put_holds holds own isDevice isService isAction

theorem load_holds (holds : Holds resolve world specs handlers) (deviceID : String) {spec : DeviceSpec} (accepted : Accepted spec)
    (ordinary : OrdinarySpec spec) :
    ∃ services, initServices resolve spec = some services ∧
      Holds resolve (world.put deviceID services)
        (fun device => if deviceID = device then some spec else specs device)
        fun device service action => if deviceID = device then none else handlers device service action := by
  obtain ⟨services, isLoaded, held⟩ := @services_loaded Doc Handler resolve spec accepted ordinary
  refine ⟨some services, isLoaded, holds.builtin, ?_, ?_⟩
  · intro device other isSpec
    split at isSpec
    · cases isSpec
      exact ⟨accepted, ordinary⟩
    · exact holds.known device other isSpec
  · intro device
    by_cases same : deviceID = device
    · subst same
      simp only [if_true, lookup_put]
      refine ⟨services, rfl, fun serviceID => ?_⟩
      rw [held]
      refine ⟨by simp, fun actions isActions actionName => ?_⟩
      obtain ⟨service, isService, rfl⟩ := Option.map_eq_some_iff.mp isActions
      have names := @update_lookup Doc Handler resolve spec service.actionList (ordinary.2 _ (lookup_mem isService)) actionName []
      rw [updateSpec, names]
      simp [declared, isService]
    · have differs : ¬ device = deviceID := fun equal => same equal.symm
      have before := holds.devices device
      simpa only [same, differs, if_false, lookup_put] using before

end Steps

/-! Runs of ordinary events. -/
section Runs

variable {Doc Handler : Type}

theorem run_holds (deviceIDForName : String → String) (resolve : DeviceSpec → String → SchemaObj Doc) (events : List (Event Doc Handler))
    (ordinary : ∀ event ∈ events, Ordinary event) :
    Holds resolve (run deviceIDForName resolve events) (fun deviceID => loaded deviceIDForName deviceID events)
      fun deviceID serviceID actionName => assigned deviceIDForName deviceID serviceID actionName events := by
  induction events using List.reverseRecOn with
  | nil => exact ⟨rfl, nofun, fun _ => rfl⟩
  | append_singleton events event ih =>
      have holds := ih fun event member => ordinary event (List.mem_append_left _ member)
      have isOrdinary := ordinary event (List.mem_append_right _ List.mem_cons_self)
      unfold run loaded assigned at holds ⊢
      simp only [List.foldl_append, List.foldl_cons, List.foldl_nil]
      cases event with
      | load spec accepted =>
          obtain ⟨services, isLoaded, after⟩ := load_holds holds (deviceIDForName spec.friendlyName) accepted isOrdinary
          simpa only [step, isLoaded] using after
      | setAction deviceID serviceID actionName handler =>
          cases handler with
          | none => simpa only [step, setAction] using holds
          | some own => exact set_action_holds holds deviceID serviceID isOrdinary own
      | call deviceID serviceID actionName args => exact holds

/-- An event about one action leaves the calls of every other action as they were. -/
theorem step_apart (deviceIDForName : String → String) (resolve : DeviceSpec → String → SchemaObj Doc) (world : World Doc Handler)
    {event : Event Doc Handler} (ordinary : Ordinary event) {action : String × String × String} (isTarget : target event = some action)
    {deviceID serviceID actionName : String} (other : (deviceID, serviceID, actionName) ≠ action) (args : Arguments Doc) :
    control (step deviceIDForName resolve world event) deviceID serviceID actionName args =
      control world deviceID serviceID actionName args := by
  cases event with
  | load spec accepted => cases isTarget
  | setAction device service name handler =>
      cases isTarget
      exact set_action_apart world ordinary handler other args
  | call device service name args => rfl

/--
In a run of ordinary events, a call is served as declared exactly when none of the names that are looked
up for it is one of `Object.prototype`, and an event about one action does nothing to another.
-/
theorem declared_actions_served (deviceIDForName : String → String) (resolve : DeviceSpec → String → SchemaObj Doc)
    (events : List (Event Doc Handler)) (ordinary : ∀ event ∈ events, Ordinary event) :
    (∀ deviceID spec, loaded deviceIDForName deviceID events = some spec → ∀ serviceID actionName args,
      (Served resolve spec (assigned deviceIDForName deviceID serviceID actionName events) serviceID actionName args
        (control (run deviceIDForName resolve events) deviceID serviceID actionName args) ↔ OrdinaryCall spec serviceID actionName)) ∧
    ∀ event, Ordinary event → ∀ action, target event = some action →
      ∀ deviceID serviceID actionName args, (deviceID, serviceID, actionName) ≠ action →
        control (run deviceIDForName resolve (events ++ [event])) deviceID serviceID actionName args =
          control (run deviceIDForName resolve events) deviceID serviceID actionName args := by
  have holds := run_holds deviceIDForName resolve events ordinary
  refine ⟨?_, ?_⟩
  · intro deviceID spec isLoaded serviceID actionName args
    exact served_iff holds isLoaded serviceID actionName args
  · intro event isOrdinary action isTarget deviceID serviceID actionName args other
    unfold run
    rw [List.foldl_append]
    exact step_apart deviceIDForName resolve _ isOrdinary isTarget other args

/-- A device whose only service has one action, with an input. -/
def printer (actionName : String) : DeviceSpec :=
  ⟨"printer", some [("urn:example-com:serviceID:print", ⟨[⟨actionName, none, some "/print/input", none, none⟩]⟩)]⟩

/-- A schema that accepts nothing. -/
def rejecting (_ : DeviceSpec) (_ : String) : SchemaObj Unit := ⟨.document, some fun () => .rejects "never"⟩

theorem print_accepted : Accepted (printer "print") := by decide +kernel

theorem to_string_accepted : Accepted (printer "toString") := by decide +kernel

/-- The printer is loaded, and its action set. -/
def setUp (actionName : String) (accepted : Accepted (printer actionName)) : List (Event Unit Nat) :=
  [.load (printer actionName) accepted, .setAction "printer" "urn:example-com:serviceID:print" actionName (some 7)]

def accepting (_ : DeviceSpec) (_ : String) : SchemaObj Unit := ⟨.document, some fun () => .accepts⟩

/-- `{input: {}}` -/
def page : Arguments Unit := .value true [("input", .object ())] []

theorem print_is_served :
    Served accepting (printer "print") (some 7) "urn:example-com:serviceID:print" "print" page
        (control (run id accepting (setUp "print" print_accepted)) "printer" "urn:example-com:serviceID:print" "print" page) ∧
      control (run id accepting (setUp "print" print_accepted)) "printer" "urn:example-com:serviceID:print" "print" page =
        some (.runs 7 page) := by
  have ordinary : ∀ event ∈ setUp "print" print_accepted, Ordinary event := by
    refine List.forall_mem_cons.mpr ⟨⟨rfl, by decide⟩, List.forall_mem_cons.mpr ⟨?_, nofun⟩⟩
    show "print" ∉ inheritedNames
    decide
  have served := (declared_actions_served id accepting (setUp "print" print_accepted) ordinary).1 "printer" (printer "print") rfl
    "urn:example-com:serviceID:print" "print" page
  exact ⟨served.mpr ⟨by decide, fun _ => by decide⟩, rfl⟩

/-- An action that is declared as `toString` runs with arguments that its schema does not accept. -/
theorem to_string_not_validated :
    ¬ Served rejecting (printer "toString") (some 7) "urn:example-com:serviceID:print" "toString"
        (.value true [("input", .object ())] [])
        (control (run id rejecting (setUp "toString" to_string_accepted)) "printer" "urn:example-com:serviceID:print" "toString"
          (.value true [("input", .object ())] [])) := by
  intro served
  have isDeclared : declared (printer "toString") "urn:example-com:serviceID:print" "toString" =
      some ⟨"toString", none, some "/print/input", none, none⟩ := by decide
  unfold Served at served
  rw [isDeclared] at served
  have same := served 7 rfl
  have ran : control (run id rejecting (setUp "toString" to_string_accepted)) "printer" "urn:example-com:serviceID:print" "toString"
      (.value true [("input", .object ())] []) = some (.runs 7 (.value true [("input", .object ())] [])) := by rfl
  have refused : servedBy (some (rejecting (printer "toString") "/print/input")) 7 (.value true [("input", .object ())] []) =
      .answered "INPUT_DATA_VALIDATION_FAIL" [] (some ("data validation failed", "never")) := by rfl
  rw [ran, Option.map_some, refused] at same
  cases same

end Runs

end Countinghouse.DeviceActions
