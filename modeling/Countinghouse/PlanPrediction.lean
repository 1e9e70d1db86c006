import Countinghouse.HandlerMap
import Countinghouse.PlanValidator

/-!
The tool names that lib/plan-validator.js predicts, and those that lib/mcp/tool-registry.js gives
when the module that was planned is loaded.
-/

namespace Countinghouse.PlanPrediction

open FreshNames PlainObject PlanValidator
open DeviceSpecs (ActionSpec ServiceSpec)
open HandlerMap (shortNameOf)
open RedisMetering (Json)
open ToolRegistry (Action Record State Event Triple Target loaded online purge step run toolMap listing listedTools deviceTools
  buildToolTargets getAllDeviceSpecs retainedSpecs addMissing reservedNames suffixed suffixed_distinct slugify serviceLabel isSpace)

/-! Loading a module that is not loaded yet. -/
section Loading

/-- Every device that a worker has is its own in the device map. -/
def Owned (s : State) : Prop := ∀ worker, ∀ device ∈ s.deviceList worker, s.deviceMap.lookup device.1 = some worker

/-- Nothing is known of the module: a plan is checked before any file of it exists. -/
structure New (s : State) (name : String) : Prop where
  devices : ∀ entry ∈ s.deviceMap, entry.2 ≠ name
  record : s.records.lookup name = none

variable {s : State}

theorem device_list_set (lists : Table (Table ToolRegistry.DeviceSpec)) (deviceMap : Table String) (records : Table Record)
    (worker other : String) (devices : Table ToolRegistry.DeviceSpec) :
    (⟨deviceMap, setKey lists worker devices, records⟩ : State).deviceList other =
      if other = worker then devices else (lists.lookup other).getD [] := by
  unfold State.deviceList
  rw [lookup_setKey]
  split <;> rfl

theorem owned_online (owned : Owned s) (worker : String) (device : String × ToolRegistry.DeviceSpec) :
    Owned (online worker s device) := by
  unfold online
  split
  · rename_i owner isOwner
    split
    · rename_i same
      subst same
      intro other entry member
      rw [device_list_set] at member
      split at member
      · rename_i same
        subst same
        rcases setKey_mem member with before | rfl
        -- the device of another worker stays as it was
        · exact owned other entry before
        · exact isOwner
      · exact owned other entry member
    · exact owned
  · rename_i free
    intro other entry member
    rw [device_list_set] at member
    -- a device that came online before has another id
    have kept : ∀ owner, ∀ entry ∈ s.deviceList owner, (setKey s.deviceMap device.1 worker).lookup entry.1 = some owner := by
      intro owner entry member
      have isOwner := owned owner entry member
      have differs : entry.1 ≠ device.1 := by
        intro same
        rw [same, free] at isOwner
        cases isOwner
      rw [lookup_setKey, if_neg differs, isOwner]
    split at member
    · rename_i same
      subst same
      rcases setKey_mem member with before | rfl
      · exact kept other entry before
      · rw [lookup_setKey, if_pos rfl]
    · exact kept other entry member

theorem lookup_filter_kept {table : Table String} {worker other key : String} (found : table.lookup key = some other)
    (differs : other ≠ worker) : (table.filter fun entry => entry.2 ≠ worker).lookup key = some other := by
  induction table with
  | nil => cases found
  | cons entry rest ih =>
      obtain ⟨name, value⟩ := entry
      by_cases same : key = name
      · subst same
        have isValue : value = other := by simpa using found
        simp [isValue, differs]
      · have apart : (key == name) = false := by simpa using same
        have later : rest.lookup key = some other := by simpa [List.lookup_cons, apart] using found
        by_cases gone : value = worker
        · simpa [gone] using ih later
        · simpa [gone, List.lookup_cons, apart] using ih later

theorem owned_purge (owned : Owned s) (worker : String) : Owned (purge s worker) := by
  intro other entry member
  unfold purge at member ⊢
  rw [device_list_set] at member
  split at member
  · rename_i same
    subst same
    obtain ⟨before, absent⟩ := List.mem_filter.mp member
    exact absurd (owned other entry before) (by simpa using absent)
  · rename_i differs
    exact lookup_filter_kept (owned other entry member) differs

theorem owned_loaded (owned : Owned s) (name : String) (devices : List (String × ToolRegistry.DeviceSpec)) :
    Owned (loaded s name devices) := by
  have each : ∀ (devices : List (String × ToolRegistry.DeviceSpec)) (s : State), Owned s → Owned (devices.foldl (online name) s) := by
    intro devices
    induction devices with
    | nil => exact fun s owned => owned
    | cons device rest ih => exact fun s owned => ih _ (owned_online owned name device)
  exact each devices _ owned

theorem owned_step (owned : Owned s) (event : Event) : Owned (step s event) := by
  cases event with
  | exit name =>
      simp only [step]
      split
      · exact owned_purge owned name
      · exact owned
  | suspend name =>
      simp only [step]
      split
      · exact owned
      · exact owned
  | restart name devices =>
      simp only [step]
      split
      · exact owned_loaded owned name devices
      · exact owned
  | reload name devices =>
      have deleted : Owned { s with records := deleteKey s.records name } := owned
      exact owned_loaded (owned_purge deleted name) name devices

theorem owned_run (events : List Event) : ∀ s, Owned s → Owned (run events s) := by
  induction events with
  | nil => exact fun s owned => owned
  | cons event rest ih => exact fun s owned => ih _ (owned_step owned event)

/-- The state in which the first device of a new module comes online. -/
def begun (s : State) (name : String) : State :=
  ⟨s.deviceMap, setKey s.deviceLists name [], setKey s.records name ⟨true, []⟩⟩

theorem deleteKey_missing {Value : Type} {table : Table Value} {key : String} (missing : table.lookup key = none) :
    key ∉ table.map Prod.fst := by
  intro member
  obtain ⟨entry, there, same⟩ := List.mem_map.mp member
  have differs := List.lookup_eq_none_iff.mp missing entry there
  simp [same] at differs

theorem reload_new (owned : Owned s) {name : String} (new : New s name) (device : String × ToolRegistry.DeviceSpec) :
    step s (.reload name [device]) = online name (begun s name) device := by
  have map : (s.deviceMap.filter fun entry => entry.2 ≠ name) = s.deviceMap := by
    apply List.filter_eq_self.mpr
    intro entry member
    simpa using new.devices entry member
  have noDevices : s.deviceList name = [] := by
    apply List.eq_nil_iff_forall_not_mem.mpr
    intro device member
    exact new.devices _ (lookup_mem (owned name device member)) rfl
  have records : deleteKey s.records name = s.records := deleteKey_absent (deleteKey_missing new.record)
  have sameList : ({ s with records := s.records } : State).deviceList name = [] := noDevices
  simp only [step, loaded, purge, List.foldl_cons, List.foldl_nil, records, sameList, List.filter_nil, map]
  rfl

/-- What the devices that are online have. -/
def onlineSpecs (s : State) : Table ToolRegistry.DeviceSpec :=
  s.deviceMap.foldl (fun result entry => assignAll result (s.deviceList entry.2)) []

/-- A running module has nothing retained, wherever its record stands. -/
theorem retained_away (records : Table Record) : retainedSpecs records =
    (enumerated (records.filter fun entry => !entry.2.running)).foldl (fun out entry => assignAll out entry.2.specs) [] := by
  rw [retainedSpecs, ← enumerated_filter, List.foldl_filter]
  apply List.foldl_ext
  intro out entry _
  cases entry.2.running <;> rfl

theorem retained_begun {name : String} (new : New s name) : retainedSpecs (begun s name).records = retainedSpecs s.records := by
  have appended : (begun s name).records = s.records ++ [(name, ⟨true, []⟩)] := setKey_absent (deleteKey_missing new.record) _
  rw [appended, retained_away, retained_away]
  simp

/-- The workers of the other modules have what they had. -/
theorem online_others {name : String} (new : New s name) (changed : State)
    (same : ∀ other ≠ name, changed.deviceList other = s.deviceList other) :
    s.deviceMap.foldl (fun result entry => assignAll result (changed.deviceList entry.2)) [] = onlineSpecs s := by
  apply List.foldl_ext
  intro result entry member
  rw [same entry.2 (new.devices entry member)]

theorem specs_begun {name : String} (new : New s name) : getAllDeviceSpecs (begun s name) = getAllDeviceSpecs s := by
  have others : ∀ other ≠ name, (begun s name).deviceList other = s.deviceList other := by
    intro other differs
    rw [begun, device_list_set, if_neg differs]
    rfl
  unfold getAllDeviceSpecs
  rw [retained_begun new]
  exact congrArg (fun listed => (retainedSpecs s.records).foldl addMissing listed) (online_others new (begun s name) others)

/-- A device whose id is taken by another module does not come online. -/
theorem specs_refused (owned : Owned s) {name : String} (new : New s name) {device : String × ToolRegistry.DeviceSpec} {owner : String}
    (taken : s.deviceMap.lookup device.1 = some owner) :
    getAllDeviceSpecs (step s (.reload name [device])) = getAllDeviceSpecs s := by
  have differs : owner ≠ name := new.devices _ (lookup_mem taken)
  have same : (begun s name).deviceMap = s.deviceMap := rfl
  rw [reload_new owned new]
  unfold online
  rw [same, taken]
  simp only [differs, if_false]
  exact specs_begun new

theorem mem_assignAll {Value : Type} (other : Table Value) : ∀ (table : Table Value) (entry : String × Value),
    entry ∈ assignAll table other → entry ∈ table ∨ entry ∈ other := by
  induction other with
  | nil => exact fun table entry member => .inl member
  | cons first rest ih =>
      intro table entry member
      rcases ih (setKey table first.1 first.2) entry member with before | later
      · rcases setKey_mem before with known | same
        · exact .inl known
        · exact .inr (same ▸ List.mem_cons_self)
      · exact .inr (List.mem_cons_of_mem _ later)

/-- What is listed as online is in the device map. -/
theorem online_mapped (owned : Owned s) : ∀ entry ∈ onlineSpecs s, ∃ worker, s.deviceMap.lookup entry.1 = some worker := by
  have each : ∀ (deviceMap : Table String) (result : Table ToolRegistry.DeviceSpec),
      (∀ entry ∈ result, ∃ worker, s.deviceMap.lookup entry.1 = some worker) →
      ∀ entry ∈ deviceMap.foldl (fun result entry => assignAll result (s.deviceList entry.2)) result,
        ∃ worker, s.deviceMap.lookup entry.1 = some worker := by
    intro deviceMap
    induction deviceMap with
    | nil => exact fun result known => known
    | cons first rest ih =>
        intro result known
        refine ih _ fun entry member => ?_
        rcases mem_assignAll _ result entry member with before | its
        · exact known entry before
        · exact ⟨first.2, owned first.2 entry its⟩
  exact each s.deviceMap [] nofun

theorem add_missing_known {listed : Table ToolRegistry.DeviceSpec} {entry : String × ToolRegistry.DeviceSpec}
    (known : entry.1 ∈ listed.map Prod.fst) : addMissing listed entry = listed := by
  have found : (listed.any fun other => other.1 = entry.1) = true := by simpa [List.any_eq_true] using known
  rw [addMissing, if_pos found]

theorem add_missing_new {listed : Table ToolRegistry.DeviceSpec} {entry : String × ToolRegistry.DeviceSpec}
    (missing : entry.1 ∉ listed.map Prod.fst) : addMissing listed entry = listed ++ [entry] := by
  have absent : ¬ (listed.any fun other => other.1 = entry.1) = true := by simpa [List.any_eq_true] using missing
  rw [addMissing, if_neg absent]

/-- The keys, when one more entry replaces what has its key. -/
theorem key_replaced {listed rest : Table ToolRegistry.DeviceSpec} {device : String × ToolRegistry.DeviceSpec} {key : String} :
    key ∈ (listed ++ device :: rest.filter fun entry => entry.1 ≠ device.1).map Prod.fst ↔
      key = device.1 ∨ key ∈ (listed ++ rest).map Prod.fst := by
  by_cases same : key = device.1
  · simp [same]
  · simp [same]

/-- Specs that are added after one more has been listed. -/
theorem add_missing_after (device : String × ToolRegistry.DeviceSpec) (retained : Table ToolRegistry.DeviceSpec) :
    ∀ (listed rest : Table ToolRegistry.DeviceSpec), device.1 ∉ listed.map Prod.fst →
      ∃ more, retained.foldl addMissing (listed ++ rest) = listed ++ more ∧
        retained.foldl addMissing (listed ++ device :: rest.filter fun entry => entry.1 ≠ device.1) =
          listed ++ device :: more.filter fun entry => entry.1 ≠ device.1 := by
  induction retained with
  | nil => exact fun listed rest _ => ⟨rest, rfl, rfl⟩
  | cons first retained ih =>
      intro listed rest fresh
      rw [List.foldl_cons, List.foldl_cons]
      by_cases known : first.1 ∈ (listed ++ rest).map Prod.fst
      · rw [add_missing_known known, add_missing_known (key_replaced.mpr (.inr known))]
        exact ih listed rest fresh
      · rw [add_missing_new known, List.append_assoc]
        -- A retained spec of the device's own id is added only while the device is not listed.
        have addedAfter : addMissing (listed ++ device :: rest.filter fun entry => entry.1 ≠ device.1) first =
            listed ++ device :: (rest ++ [first]).filter fun entry => entry.1 ≠ device.1 := by
          by_cases same : first.1 = device.1
          · rw [add_missing_known (key_replaced.mpr (.inl same)), List.filter_append]
            simp [same]
          · have missing : first.1 ∉ (listed ++ device :: rest.filter fun entry => entry.1 ≠ device.1).map Prod.fst :=
              fun member => (key_replaced.mp member).elim same known
            rw [add_missing_new missing, List.filter_append]
            simp [same]
        rw [addedAfter]
        exact ih listed (rest ++ [first]) fresh

/-- What was listed stays in front. -/
theorem add_missing_prefix (retained : Table ToolRegistry.DeviceSpec) :
    ∀ listed : Table ToolRegistry.DeviceSpec, ∃ more, retained.foldl addMissing listed = listed ++ more := by
  induction retained with
  | nil => exact fun listed => ⟨[], (List.append_nil listed).symm⟩
  | cons first retained ih =>
      intro listed
      obtain ⟨more, isMore⟩ := ih (addMissing listed first)
      rw [List.foldl_cons, isMore]
      by_cases known : first.1 ∈ listed.map Prod.fst
      · exact ⟨more, by rw [add_missing_known known]⟩
      · exact ⟨first :: more, by rw [add_missing_new known, List.append_assoc, List.singleton_append]⟩

/-- The state in which the device of a new module is online. -/
def shown (s : State) (name : String) (device : String × ToolRegistry.DeviceSpec) : State :=
  ⟨setKey s.deviceMap device.1 name, setKey (begun s name).deviceLists name [device], (begun s name).records⟩

theorem shown_own (s : State) (name : String) (device : String × ToolRegistry.DeviceSpec) :
    (shown s name device).deviceList name = [device] := by
  rw [shown, device_list_set, if_pos rfl]

theorem shown_others (s : State) (name : String) (device : String × ToolRegistry.DeviceSpec) :
    ∀ other ≠ name, (shown s name device).deviceList other = s.deviceList other := by
  intro other differs
  rw [shown, device_list_set, if_neg differs, begun, lookup_setKey, if_neg differs]
  rfl

theorem reload_free (owned : Owned s) {name : String} (new : New s name) {device : String × ToolRegistry.DeviceSpec}
    (free : s.deviceMap.lookup device.1 = none) : step s (.reload name [device]) = shown s name device := by
  have noMap : (begun s name).deviceMap.lookup device.1 = none := free
  have noDevices : (begun s name).deviceList name = [] := by rw [begun, device_list_set, if_pos rfl]
  rw [reload_new owned new, online]
  simp only [noMap, noDevices]
  rfl

/-- The new device is listed after those that were online, in place of a retained one of its id. -/
theorem specs_loaded (owned : Owned s) {name : String} (new : New s name) {device : String × ToolRegistry.DeviceSpec}
    (free : s.deviceMap.lookup device.1 = none) :
    ∃ rest, getAllDeviceSpecs s = onlineSpecs s ++ rest ∧
      getAllDeviceSpecs (step s (.reload name [device])) =
        onlineSpecs s ++ device :: rest.filter fun entry => entry.1 ≠ device.1 := by
  have fresh : device.1 ∉ (onlineSpecs s).map Prod.fst := by
    intro member
    obtain ⟨entry, there, same⟩ := List.mem_map.mp member
    obtain ⟨worker, mapped⟩ := online_mapped owned entry there
    rw [same, free] at mapped
    cases mapped
  obtain ⟨rest, before, after⟩ := add_missing_after device (retainedSpecs s.records) (onlineSpecs s) [] fresh
  rw [List.append_nil] at before
  refine ⟨rest, before, ?_⟩
  have map : setKey s.deviceMap device.1 name = s.deviceMap ++ [(device.1, name)] := setKey_absent (deleteKey_missing free) _
  have listed : (setKey s.deviceMap device.1 name).foldl
      (fun result entry => assignAll result ((shown s name device).deviceList entry.2)) [] = onlineSpecs s ++ [device] := by
    rw [map, List.foldl_append, online_others new _ (shown_others s name device)]
    simp only [List.foldl_cons, List.foldl_nil, shown_own]
    exact setKey_absent fresh device.2
  have whole : getAllDeviceSpecs (shown s name device) = (retainedSpecs s.records).foldl addMissing (onlineSpecs s ++ [device]) := by
    unfold getAllDeviceSpecs
    rw [← retained_begun new, ← listed]
    rfl
  rw [reload_free owned new free]
  exact whole.trans after

end Loading

/-! What a plan plans. -/
section Plans

/-- An action under the short name of its service. -/
structure PlannedAction where
  service : String
  name : String
  description : Option String
  deriving DecidableEq

def PlannedAction.toolName (device : String) (action : PlannedAction) : String :=
  predictedToolName device action.service action.name

/-- The named actions of a service. -/
def plannedActions (service : String) (actions : List Json) : List PlannedAction :=
  actions.filterMap fun action => (textAt action "name").map fun name => ⟨service, name, textAt action "description"⟩

def serviceActions (service : Json) : List PlannedAction :=
  match textAt service "name" with
  | none => []
  | some name => plannedActions name ((entriesAt service "actions").getD [])

def plannedServices (plan : Json) : List String := ((entriesAt plan "services").getD []).filterMap fun service => textAt service "name"

def planned (plan : Json) : List PlannedAction := ((entriesAt plan "services").getD []).flatMap serviceActions

theorem action_findings_ok {setting : Setting} {service name : String} {seen : List String} {action : Json}
    (fine : (actionFindings setting service seen name action).problems = []) :
    predictedToolName setting.device service name ∉ setting.existing := by
  intro taken
  simp only [actionFindings, if_pos taken, List.append_eq_nil_iff] at fine
  cases fine.2

theorem actions_findings_ok {setting : Setting} {i : Nat} {service : String} (actions : List Json) :
    ∀ j seen, (actionsFindings setting i service j seen actions).problems = [] →
      (actionsFindings setting i service j seen actions).toolNames =
          (plannedActions service actions).map (PlannedAction.toolName setting.device) ∧
        (plannedActions service actions).length = actions.length ∧
        ∀ action ∈ plannedActions service actions, action.toolName setting.device ∉ setting.existing := by
  induction actions with
  | nil => exact fun j seen _ => ⟨rfl, rfl, nofun⟩
  | cons action rest ih =>
      intro j seen fine
      unfold actionsFindings at fine ⊢
      cases isName : textAt action "name" with
      | none => simp [isName, found, Findings.add] at fine
      | some name =>
          simp only [isName, Findings.add, List.append_eq_nil_iff] at fine ⊢
          obtain ⟨names, lengths, free⟩ := ih _ _ fine.2
          have planned : plannedActions service (action :: rest) =
              ⟨service, name, textAt action "description"⟩ :: plannedActions service rest := by
            simp [plannedActions, isName]
          rw [planned, names]
          refine ⟨rfl, by simp [lengths], ?_⟩
          intro other member
          rcases List.mem_cons.mp member with rfl | later
          · exact action_findings_ok fine.1
          · exact free other later

theorem services_findings_ok {setting : Setting} (services : List Json) :
    ∀ i seen, (servicesFindings setting i seen services).problems = [] →
      (servicesFindings setting i seen services).toolNames =
          (services.flatMap serviceActions).map (PlannedAction.toolName setting.device) ∧
        (∀ service ∈ services, serviceActions service ≠ []) ∧
        ∀ action ∈ services.flatMap serviceActions, action.toolName setting.device ∉ setting.existing := by
  induction services with
  | nil => exact fun i seen _ => ⟨rfl, nofun, nofun⟩
  | cons service rest ih =>
      intro i seen fine
      unfold servicesFindings at fine ⊢
      cases isName : textAt service "name" with
      | none => simp [isName, found, Findings.add] at fine
      | some name =>
          simp only [isName, serviceFindings, Findings.add, List.append_eq_nil_iff] at fine ⊢
          -- a service without actions is a problem, so every service plans some
          cases listed : entriesAt service "actions" with
          | none => simp [listed, found] at fine
          | some actions =>
              simp only [listed] at fine ⊢
              obtain ⟨names, lengths, free⟩ := actions_findings_ok actions _ _ fine.1.2
              obtain ⟨namesRest, some, freeRest⟩ := ih _ _ fine.2
              have its : serviceActions service = plannedActions name actions := by
                simp [serviceActions, isName, listed]
              rw [List.flatMap_cons, its, names, namesRest]
              refine ⟨by simp [found], ?_, ?_⟩
              · intro other member
                rcases List.mem_cons.mp member with rfl | later
                · rw [its]
                  intro none
                  rw [none] at lengths
                  have empty : actions = [] := List.eq_nil_of_length_eq_zero lengths.symm
                  rw [empty] at listed
                  unfold entriesAt at listed
                  split at listed <;> simp at listed
                · exact some other later
              · intro action member
                rcases List.mem_append.mp member with here | later
                · exact free action here
                · exact freeRest action later

/-- A plan that passes has a device and actions, and none of the predicted names is there. -/
theorem plan_ok {host : Host} {plan : Json} {existing : List String} {specs : Option (Table ToolRegistry.DeviceSpec)}
    (ok : (validatePlan host plan existing specs).ok = true) :
    ∃ device, textAt plan "device" = some device ∧ planned plan ≠ [] ∧
      (validatePlan host plan existing specs).toolNames = (planned plan).map (PlannedAction.toolName device) ∧
      ∀ action ∈ planned plan, action.toolName device ∉ existing := by
  unfold validatePlan at ok ⊢
  cases isDevice : textAt plan "device" with
  | none => simp [isDevice] at ok
  | some device =>
      cases listed : entriesAt plan "services" with
      | none => simp [isDevice, listed] at ok
      | some services =>
          simp only [isDevice, listed, List.isEmpty_iff, List.append_eq_nil_iff] at ok ⊢
          obtain ⟨names, some, free⟩ := services_findings_ok services 0 [] ok.2
          have all : planned plan = services.flatMap serviceActions := by simp [planned, listed]
          rw [all]
          refine ⟨device, rfl, ?_, names, free⟩
          cases services with
          | nil =>
              unfold entriesAt at listed
              split at listed <;> simp at listed
          | cons service rest =>
              intro none
              rw [List.flatMap_cons, List.append_eq_nil_iff] at none
              exact some service List.mem_cons_self none.1

end Plans

/-! The module that was planned. -/
section Modules

variable {s : State} {id : String} {spec : DeviceSpecs.DeviceSpec}

/-- The listed actions, with the names they ask for. -/
def asks (specs : Table ToolRegistry.DeviceSpec) : List (Triple × String) :=
  (listedTools specs).map fun tool => (tool.1.toTriple, tool.2)

theorem asks_append (first second : Table ToolRegistry.DeviceSpec) : asks (first ++ second) = asks first ++ asks second := by
  simp [asks, listedTools]

/-- The actions of a spec, each with the URN of its service. -/
def declared (spec : DeviceSpecs.DeviceSpec) : List (String × ActionSpec) :=
  spec.services.flatMap fun service => service.2.actionList.map fun action => (service.1, action)

/-- The name that the registry tries first. -/
def askedName (spec : DeviceSpecs.DeviceSpec) (act : String × ActionSpec) : String :=
  slugify spec.friendlyName ++ "_" ++ serviceLabel act.1 ++ "_" ++ slugify act.2.name

def tripleOf (id : String) (act : String × ActionSpec) : Triple := ⟨id, act.1, act.2.name⟩

/-- The action as a plan has it. -/
def asPlanned (act : String × ActionSpec) : PlannedAction := ⟨(shortNameOf act.1).getD "", act.2.name, act.2.description⟩

/-- The registry does not skip the action. -/
def isDescribed (act : String × ActionSpec) : Bool := act.2.description.any fun text => !text.toList.all isSpace

theorem asks_module (isName : spec.friendlyName ≠ "") :
    asks [(id, spec.registered)] = ((declared spec).filter isDescribed).map fun act => (tripleOf id act, askedName spec act) := by
  have ofActions : ∀ (urn : String) (actions : List ActionSpec),
      ((actions.map fun action => (⟨action.name, action.description, action.output⟩ : Action)).filterMap
          (ToolRegistry.actionTool id (slugify spec.friendlyName)
            ⟨urn, some (actions.map fun action => ⟨action.name, action.description, action.output⟩)⟩)).map
          (fun tool => (tool.1.toTriple, tool.2)) =
        ((actions.map fun action => (urn, action)).filter isDescribed).map fun act => (tripleOf id act, askedName spec act) := by
    intro urn actions
    generalize (some (actions.map fun action => (⟨action.name, action.description, action.output⟩ : Action))) = whole
    rw [List.filterMap_map]
    induction actions with
    | nil => rfl
    | cons action rest ih =>
        cases isText : action.description with
        | none => simpa [ToolRegistry.actionTool, isDescribed, isText] using ih
        | some text =>
            by_cases blank : text.toList.all isSpace = true
            · simpa [ToolRegistry.actionTool, isDescribed, isText, blank] using ih
            · simpa [ToolRegistry.actionTool, isDescribed, isText, blank, tripleOf, askedName] using ih
  have slug : ToolRegistry.deviceSlug id spec.registered = slugify spec.friendlyName := by
    simp [ToolRegistry.deviceSlug, DeviceSpecs.DeviceSpec.registered, isName]
  have services : spec.registered.serviceList.getD [] = spec.services.map fun service =>
      ⟨service.1, some (service.2.actionList.map fun action => ⟨action.name, action.description, action.output⟩)⟩ := by
    unfold DeviceSpecs.DeviceSpec.registered DeviceSpecs.DeviceSpec.services
    cases spec.serviceList <;> rfl
  simp only [asks, listedTools, deviceTools, declared, slug, services, List.flatMap_cons, List.flatMap_nil, List.append_nil,
    List.flatMap_map, List.map_flatMap, List.filter_flatMap, ToolRegistry.serviceTools, Option.getD_some, ofActions]

/-- Each tool is an action of a device that is listed. -/
theorem asks_device {specs : Table ToolRegistry.DeviceSpec} {ask : Triple × String} (listed : ask ∈ asks specs) :
    ask.1.deviceID ∈ specs.map Prod.fst := by
  obtain ⟨tool, isTool, rfl⟩ := List.mem_map.mp listed
  obtain ⟨entry, there, ofDevice⟩ := List.mem_flatMap.mp isTool
  obtain ⟨service, _, ofService⟩ := List.mem_flatMap.mp ofDevice
  obtain ⟨action, _, isAction⟩ := List.mem_filterMap.mp ofService
  have same : tool.1.deviceID = entry.1 := by
    unfold ToolRegistry.actionTool at isAction
    split at isAction
    · cases isAction
    · split at isAction
      · cases isAction
      · simp only [Option.some.injEq] at isAction
        rw [← isAction]
  exact List.mem_map.mpr ⟨entry, there, same.symm⟩

theorem assigned_device {specs : Table ToolRegistry.DeviceSpec} {used : List String} {entry : String × Triple}
    (given : entry ∈ assign suffixed used (asks specs)) : entry.2.deviceID ∈ specs.map Prod.fst := by
  obtain ⟨asked, _, listed, _⟩ := mem_assign suffixed_distinct given
  exact asks_device listed

end Modules

/-! What the plan says of the tools. -/
section Predictions

/-- The spec has the device, a service for each planned one and the planned actions with their descriptions. -/
structure Declares (spec : DeviceSpecs.DeviceSpec) (plan : Json) : Prop where
  device : textAt plan "device" = some spec.friendlyName
  services : (spec.services.map fun service => shortNameOf service.1).Perm ((plannedServices plan).map some)
  actions : ((declared spec).map asPlanned).Perm (planned plan)

/-- What validate_plan answers to a plan: it has the names that tools/list has. -/
def planVerdict (host : Host) (plan : Json) (s : State) (specs : Option (Table ToolRegistry.DeviceSpec)) : Verdict :=
  validatePlan host plan ((toolMap s).map Prod.fst) specs

variable (host : Host)

def deviceIDOf (spec : DeviceSpecs.DeviceSpec) : String := host.deviceIDForName spec.friendlyName

/-- The module is loaded, and its device comes online. -/
def load (s : State) (name : String) (spec : DeviceSpecs.DeviceSpec) : State :=
  step s (.reload name [(deviceIDOf host spec, spec.registered)])

def predictedName (spec : DeviceSpecs.DeviceSpec) (act : String × ActionSpec) : String :=
  (asPlanned act).toolName spec.friendlyName

/-- The verdict's names are those of the module's tools, and no other tool has changed its name. -/
structure Predicts (s : State) (name : String) (spec : DeviceSpecs.DeviceSpec) (toolNames : List String) : Prop where
  reported : toolNames.Perm ((declared spec).map (predictedName spec))
  named : ((toolMap (load host s name spec)).filter fun entry => entry.2.deviceID = deviceIDOf host spec) =
    (declared spec).map fun act => (predictedName spec act, tripleOf (deviceIDOf host spec) act)
  kept : ∀ entry ∈ toolMap s, (toolMap (load host s name spec)).lookup entry.1 = some entry.2

/-- The names of the tools of the devices that are online. -/
def onlineNames (s : State) : List String := (buildToolTargets (onlineSpecs s)).map Prod.fst

/-- When no device of this id is known, and the registry goes through no other names for the actions. -/
structure Foreseen (s : State) (spec : DeviceSpecs.DeviceSpec) : Prop where
  offline : s.deviceMap.lookup (deviceIDOf host spec) = none
  forgotten : ∀ entry ∈ toolMap s, entry.2.deviceID ≠ deviceIDOf host spec
  described : ∀ act ∈ declared spec, isDescribed act = true
  apart : ((declared spec).map (predictedName spec)).Nodup
  unreserved : ∀ act ∈ declared spec, predictedName spec act ∉ reservedNames
  /-- A predicted name is what is asked for, or the numbered form of it that comes after the ones in use. -/
  asked : ∀ before act after, declared spec = before ++ act :: after →
    ∃ place, predictedName spec act = suffixed (askedName spec act) place ∧
      ∀ earlier < place, suffixed (askedName spec act) earlier ∈
        before.map (predictedName spec) ++ onlineNames s ++ reservedNames

theorem online_names_eq (s : State) : onlineNames s = (assign suffixed reservedNames (asks (onlineSpecs s))).map Prod.fst := by
  unfold asks
  rw [← ToolRegistry.assign_map, List.map_map]
  rfl

variable {s : State} {name : String} {spec : DeviceSpecs.DeviceSpec}

/-- The conditions on the names, as the registry meets them. -/
theorem names_expected_iff (apart : ∀ act ∈ declared spec, predictedName spec act ∉ onlineNames s) :
    Expected suffixed (onlineNames s ++ reservedNames)
        ((declared spec).map fun act => (askedName spec act, predictedName spec act)) ↔
      ((declared spec).map (predictedName spec)).Nodup ∧
        (∀ act ∈ declared spec, predictedName spec act ∉ reservedNames) ∧
        ∀ before act after, declared spec = before ++ act :: after →
          ∃ place, predictedName spec act = suffixed (askedName spec act) place ∧
            ∀ earlier < place, suffixed (askedName spec act) earlier ∈
              before.map (predictedName spec) ++ onlineNames s ++ reservedNames := by
  rw [expected_iff]
  have names : ((declared spec).map fun act => (askedName spec act, predictedName spec act)).map Prod.snd =
      (declared spec).map (predictedName spec) := by
    rw [List.map_map]
    rfl
  rw [names]
  apply and_congr_right
  intro _
  apply and_congr
  · constructor
    · intro free act member reserved
      exact free _ (List.mem_map_of_mem member) (List.mem_append_right _ reserved)
    · intro free other member inUse
      obtain ⟨act, its, rfl⟩ := List.mem_map.mp member
      rcases List.mem_append.mp inUse with online | reserved
      · exact apart act its online
      · exact free act its reserved
  · constructor
    · intro first before act after split
      obtain ⟨place, isName, passed⟩ := first (before.map fun act => (askedName spec act, predictedName spec act)) _ _
        (after.map fun act => (askedName spec act, predictedName spec act)) (by rw [split, List.map_append, List.map_cons])
      refine ⟨place, isName, fun earlier within => ?_⟩
      simpa [List.mem_append, or_assoc] using passed earlier within
    · intro first before asked given after split
      obtain ⟨early, late, whole, rfl, isLate⟩ := List.map_eq_append_iff.mp split
      obtain ⟨act, more, rfl, isAct, rfl⟩ := List.map_eq_cons_iff.mp isLate
      obtain ⟨rfl, rfl⟩ := Prod.mk.inj isAct
      obtain ⟨place, isName, passed⟩ := first early act more whole
      refine ⟨place, isName, fun earlier within => ?_⟩
      simpa [List.mem_append, or_assoc] using passed earlier within

/-- Tools of which all, or none, are the device's. -/
theorem filter_device (specs : Table ToolRegistry.DeviceSpec) (used : List String) (id : String) (absent : id ∉ specs.map Prod.fst) :
    ((assign suffixed used (asks specs)).filter fun entry => entry.2.deviceID = id) = [] := by
  apply List.filter_eq_nil_iff.mpr
  intro entry given
  have listed := assigned_device given
  simpa using fun same : entry.2.deviceID = id => absent (same ▸ listed)

theorem filter_own (device : String × ToolRegistry.DeviceSpec) (used : List String) :
    ((assign suffixed used (asks [device])).filter fun entry => entry.2.deviceID = device.1) = assign suffixed used (asks [device]) := by
  apply List.filter_eq_self.mpr
  intro entry given
  have listed := assigned_device given
  simpa using listed

/-- The devices that are online come first. -/
theorem online_named (s : State) : ∃ rest, toolMap s = assign suffixed reservedNames (asks (onlineSpecs s)) ++ rest := by
  obtain ⟨more, isMore⟩ := add_missing_prefix (retainedSpecs s.records) (onlineSpecs s)
  have listing_eq : ToolRegistry.listing s = asks (onlineSpecs s ++ more) := congrArg asks isMore
  rw [ToolRegistry.tool_map_eq, listing_eq, asks_append, assign_append suffixed_distinct]
  exact ⟨_, rfl⟩

/-- The tools before and after, when the device's id is free. -/
theorem tools_loaded (owned : Owned s) (new : New s name) (free : s.deviceMap.lookup (deviceIDOf host spec) = none) :
    ∃ rest, toolMap s = assign suffixed reservedNames (asks (onlineSpecs s)) ++
          assign suffixed (onlineNames s ++ reservedNames) (asks rest) ∧
      ∃ used, used = (assign suffixed (onlineNames s ++ reservedNames) (asks [(deviceIDOf host spec, spec.registered)])).map Prod.fst ∧
        toolMap (load host s name spec) = assign suffixed reservedNames (asks (onlineSpecs s)) ++
          (assign suffixed (onlineNames s ++ reservedNames) (asks [(deviceIDOf host spec, spec.registered)]) ++
            assign suffixed (used ++ (onlineNames s ++ reservedNames))
              (asks (rest.filter fun entry => entry.1 ≠ deviceIDOf host spec))) := by
  obtain ⟨rest, before, after⟩ := @specs_loaded _ owned _ new (deviceIDOf host spec, spec.registered) free
  have listing_eq : ∀ s, ToolRegistry.listing s = asks (getAllDeviceSpecs s) := fun s => rfl
  refine ⟨rest, ?_, _, rfl, ?_⟩
  · rw [ToolRegistry.tool_map_eq, listing_eq, before, asks_append, assign_append suffixed_distinct, ← online_names_eq]
  · rw [ToolRegistry.tool_map_eq, listing_eq, load, after, ← List.singleton_append, asks_append, asks_append,
      assign_append suffixed_distinct, assign_append suffixed_distinct, ← online_names_eq]

/-- The device's tools are named after those of the devices that were online. -/
theorem own_tools (owned : Owned s) (new : New s name) (free : s.deviceMap.lookup (deviceIDOf host spec) = none) :
    ((toolMap (load host s name spec)).filter fun entry => entry.2.deviceID = deviceIDOf host spec) =
      assign suffixed (onlineNames s ++ reservedNames) (asks [(deviceIDOf host spec, spec.registered)]) := by
  obtain ⟨rest, _, used, _, after⟩ := tools_loaded host owned new free
  have others : deviceIDOf host spec ∉ (onlineSpecs s).map Prod.fst := by
    intro member
    obtain ⟨entry, there, same⟩ := List.mem_map.mp member
    obtain ⟨worker, mapped⟩ := online_mapped owned entry there
    rw [same, free] at mapped
    cases mapped
  have later : deviceIDOf host spec ∉ (rest.filter fun entry => entry.1 ≠ deviceIDOf host spec).map Prod.fst := by
    intro member
    obtain ⟨entry, there, same⟩ := List.mem_map.mp member
    simp [same] at there
  rw [after, List.filter_append, List.filter_append, filter_device _ _ _ others, filter_device _ _ _ later, List.nil_append,
    List.append_nil]
  exact filter_own (deviceIDOf host spec, spec.registered) _

/-- All actions are listed, under the names that were predicted. -/
theorem own_tools_named (isName : spec.friendlyName ≠ "") (id : String) (used : List String) :
    assign suffixed used (asks [(id, spec.registered)]) = (declared spec).map (fun act => (predictedName spec act, tripleOf id act)) ↔
      (∀ act ∈ declared spec, isDescribed act = true) ∧
        Expected suffixed used ((declared spec).map fun act => (askedName spec act, predictedName spec act)) := by
  have whole : (∀ act ∈ declared spec, isDescribed act = true) →
      (assign suffixed used (asks [(id, spec.registered)]) =
          (declared spec).map (fun act => (predictedName spec act, tripleOf id act)) ↔
        Expected suffixed used ((declared spec).map fun act => (askedName spec act, predictedName spec act))) := by
    intro described
    have expected := assign_expected_iff suffixed_distinct
      ((declared spec).map fun act => (tripleOf id act, askedName spec act, predictedName spec act)) used
    simp only [List.map_map, Function.comp_def] at expected
    rw [asks_module isName, List.filter_eq_self.mpr described]
    exact expected
  constructor
  · intro same
    have lengths := congrArg List.length same
    have items : (assign suffixed used (asks [(id, spec.registered)])).length = (asks [(id, spec.registered)]).length := by
      rw [← List.length_map Prod.snd, assign_items, List.length_map]
    rw [items, asks_module isName, List.length_map, List.length_map] at lengths
    have described := List.length_filter_eq_length_iff.mp lengths
    exact ⟨described, (whole described).mp same⟩
  · rintro ⟨described, expected⟩
    exact (whole described).mpr expected

/-- A device without tools is listed or not. -/
theorem asks_without (id : String) (specs : Table ToolRegistry.DeviceSpec) (none : ∀ ask ∈ asks specs, ask.1.deviceID ≠ id) :
    asks (specs.filter fun entry => entry.1 ≠ id) = asks specs := by
  induction specs with
  | nil => rfl
  | cons entry rest ih =>
      have split : asks (entry :: rest) = asks [entry] ++ asks rest := asks_append [entry] rest
      have later := ih fun ask member => none ask (split ▸ List.mem_append_right _ member)
      by_cases same : entry.1 = id
      · have empty : asks [entry] = [] := by
          apply List.eq_nil_iff_forall_not_mem.mpr
          intro ask member
          have isDevice : ask.1.deviceID = entry.1 := by simpa using asks_device member
          exact none ask (split ▸ List.mem_append_left _ member) (isDevice.trans same)
        rw [List.filter_cons_of_neg (by simpa using same), later, split, empty, List.nil_append]
      · rw [List.filter_cons_of_pos (by simpa using same), split, ← later]
        exact asks_append [entry] _

/-- Tools of other devices keep their names, when the names that are given before theirs are new. -/
theorem others_kept (owned : Owned s) (new : New s name) (free : s.deviceMap.lookup (deviceIDOf host spec) = none)
    (forgotten : ∀ entry ∈ toolMap s, entry.2.deviceID ≠ deviceIDOf host spec)
    (apart : ∀ entry ∈ (toolMap (load host s name spec)).filter (fun entry => entry.2.deviceID = deviceIDOf host spec),
      entry.1 ∉ (toolMap s).map Prod.fst) :
    ∀ entry ∈ toolMap s, (toolMap (load host s name spec)).lookup entry.1 = some entry.2 := by
  rw [own_tools host owned new free] at apart
  obtain ⟨rest, before, used, isUsed, after⟩ := tools_loaded host owned new free
  have same : asks (rest.filter fun entry => entry.1 ≠ deviceIDOf host spec) = asks rest := by
    apply asks_without
    intro ask member same
    have items := @assign_items _ _ _ _ suffixed (asks rest) (onlineNames s ++ reservedNames)
    have named : ask.1 ∈ (assign suffixed (onlineNames s ++ reservedNames) (asks rest)).map Prod.snd := by
      rw [items]
      exact List.mem_map_of_mem member
    obtain ⟨entry, given, isAsk⟩ := List.mem_map.mp named
    refine forgotten entry ?_ (isAsk ▸ same)
    rw [before]
    exact List.mem_append_right _ given
  -- the new names are given before those of the rest, and are no names of the rest
  have kept : assign suffixed (used ++ (onlineNames s ++ reservedNames)) (asks rest) =
      assign suffixed (onlineNames s ++ reservedNames) (asks rest) := by
    apply assign_kept suffixed_distinct
    intro given member inUse
    rw [isUsed] at inUse
    obtain ⟨entry, its, rfl⟩ := List.mem_map.mp inUse
    refine apart entry its ?_
    rw [before, List.map_append]
    exact List.mem_append_right _ member
  have nodup : ((toolMap (load host s name spec)).map Prod.fst).Nodup := by
    rw [ToolRegistry.tool_map_eq]
    exact (assign_fresh suffixed_distinct _ _).1
  intro entry member
  apply (lookup_iff_mem nodup entry.1 entry.2).mpr
  rw [after, same, kept]
  rw [before] at member
  rcases List.mem_append.mp member with online | later
  · exact List.mem_append_left _ online
  · exact List.mem_append_right _ (List.mem_append_right _ later)

theorem text_at_nonempty {value : Json} {name text : String} (isText : textAt value name = some text) : text ≠ "" := by
  unfold textAt at isText
  split at isText
  · split at isText
    · cases isText
    · rename_i _ differs
      cases isText
      exact differs
  · cases isText

/-- The plan was checked against all names, those of the devices online among them. -/
theorem apart_online (apart : ∀ act ∈ declared spec, predictedName spec act ∉ (toolMap s).map Prod.fst) :
    ∀ act ∈ declared spec, predictedName spec act ∉ onlineNames s := by
  intro act member online
  obtain ⟨rest, isMap⟩ := online_named s
  apply apart act member
  rw [isMap, List.map_append, ← online_names_eq]
  exact List.mem_append_left _ online

/-- With the id taken nothing new is listed, and no predicted name is there. -/
theorem predicts_offline (owned : Owned s) (new : New s name) {toolNames : List String} (some : declared spec ≠ [])
    (apart : ∀ act ∈ declared spec, predictedName spec act ∉ (toolMap s).map Prod.fst)
    (predicts : Predicts host s name spec toolNames) : s.deviceMap.lookup (deviceIDOf host spec) = none := by
  by_contra known
  obtain ⟨owner, taken⟩ := Option.ne_none_iff_exists'.mp known
  have same : toolMap (load host s name spec) = toolMap s := by
    have specs := @specs_refused _ owned _ new (deviceIDOf host spec, spec.registered) _ taken
    unfold toolMap ToolRegistry.toolTargets load
    rw [specs]
  obtain ⟨act, member⟩ := List.exists_mem_of_ne_nil _ some
  have named : (predictedName spec act, tripleOf (deviceIDOf host spec) act) ∈ toolMap s := by
    rw [← same]
    apply List.mem_of_mem_filter
    rw [predicts.named]
    exact List.mem_map_of_mem member
  have inUse := List.mem_map_of_mem (f := Prod.fst) named
  exact apart act member inUse

/-- A tool of that id would keep a name that the plan found free. -/
theorem predicts_forgotten {toolNames : List String} (apart : ∀ act ∈ declared spec, predictedName spec act ∉ (toolMap s).map Prod.fst)
    (predicts : Predicts host s name spec toolNames) : ∀ entry ∈ toolMap s, entry.2.deviceID ≠ deviceIDOf host spec := by
  intro entry member same
  have there := lookup_mem (predicts.kept entry member)
  have its : entry ∈ (toolMap (load host s name spec)).filter fun entry => entry.2.deviceID = deviceIDOf host spec :=
    List.mem_filter.mpr ⟨there, by simpa using same⟩
  rw [predicts.named] at its
  obtain ⟨act, isAct, rfl⟩ := List.mem_map.mp its
  have inUse := List.mem_map_of_mem (f := Prod.fst) member
  exact apart act isAct inUse

/-- A plan that passes predicts its tools exactly when its names are foreseen, whether its spec is accepted or not. -/
theorem plan_predicts_iff (events : List Event) (name : String) (new : New (run events ⟨[], [], []⟩) name) (plan : Json)
    (specs : Option (Table ToolRegistry.DeviceSpec)) (ok : (planVerdict host plan (run events ⟨[], [], []⟩) specs).ok = true)
    (spec : DeviceSpecs.DeviceSpec) (declares : Declares spec plan) :
    Predicts host (run events ⟨[], [], []⟩) name spec (planVerdict host plan (run events ⟨[], [], []⟩) specs).toolNames ↔
      Foreseen host (run events ⟨[], [], []⟩) spec := by
  have owned : Owned (run events ⟨[], [], []⟩) := owned_run events _ nofun
  generalize run events ⟨[], [], []⟩ = s at new ok owned ⊢
  obtain ⟨device, isDevice, some, names, free⟩ := plan_ok ok
  rw [declares.device] at isDevice
  cases isDevice
  have isName := text_at_nonempty declares.device
  have apart : ∀ act ∈ declared spec, predictedName spec act ∉ (toolMap s).map Prod.fst := by
    intro act member
    exact free _ (declares.actions.mem_iff.mp (List.mem_map_of_mem member))
  have fresh := apart_online apart
  have reported : (planVerdict host plan s specs).toolNames.Perm ((declared spec).map (predictedName spec)) := by
    have perm := declares.actions.symm.map (PlannedAction.toolName spec.friendlyName)
    rw [List.map_map] at perm
    exact names ▸ perm
  have nonempty : declared spec ≠ [] := by
    intro none
    have perm := declares.actions
    rw [none, List.map_nil] at perm
    exact some perm.symm.eq_nil
  constructor
  · intro predicts
    have offline := predicts_offline host owned new nonempty apart predicts
    have forgotten := predicts_forgotten host apart predicts
    obtain ⟨described, expected⟩ := (own_tools_named isName (deviceIDOf host spec) (onlineNames s ++ reservedNames)).mp
      ((own_tools host owned new offline).symm.trans predicts.named)
    obtain ⟨nodup, unreserved, asked⟩ := (names_expected_iff fresh).mp expected
    exact ⟨offline, forgotten, described, nodup, unreserved, asked⟩
  · intro foreseen
    have named := (own_tools host owned new foreseen.offline).trans
      ((own_tools_named isName (deviceIDOf host spec) _).mpr ⟨foreseen.described, (names_expected_iff fresh).mpr
        ⟨foreseen.apart, foreseen.unreserved, foreseen.asked⟩⟩)
    refine ⟨reported, named, others_kept host owned new foreseen.offline foreseen.forgotten ?_⟩
    intro entry its
    rw [named] at its
    obtain ⟨act, member, rfl⟩ := List.mem_map.mp its
    exact apart act member

def repoHost : Host := ⟨fun name => name ++ "-id", fun _ => ""⟩

/-- A plan with one service, and actions that have a description. -/
def scanPlan (actions : List String) : Json :=
  .object [("device", .string "repo"), ("services", .array [.object [("name", .string "scan"),
    ("actions", .array (actions.map fun name => .object [("name", .string name), ("description", .string "Scans.")]))]])]

def scanSpec (actions : List String) : DeviceSpecs.DeviceSpec :=
  ⟨"repo", some [("urn:example:serviceID:scan", ⟨actions.map fun name => ⟨name, some "Scans.", none, none, none⟩⟩)]⟩

/-- Another module's tool is there. -/
def otherLoaded : List Event := [.reload "other" [("other-id", ToolRegistry.scanSpec "other")]]

theorem scan_is_predicted :
    Predicts repoHost (run otherLoaded ⟨[], [], []⟩) "repo" (scanSpec ["run"])
      (planVerdict repoHost (scanPlan ["run"]) (run otherLoaded ⟨[], [], []⟩) none).toolNames := by
  have new : New (run otherLoaded ⟨[], [], []⟩) "repo" := ⟨by decide +kernel, by decide +kernel⟩
  have declares : Declares (scanSpec ["run"]) (scanPlan ["run"]) := ⟨by decide +kernel, by decide +kernel, by decide +kernel⟩
  refine (plan_predicts_iff repoHost otherLoaded "repo" new (scanPlan ["run"]) none (by decide +kernel) (scanSpec ["run"])
    declares).mpr ⟨by decide +kernel, by decide +kernel, by decide +kernel, by decide +kernel, by decide +kernel, ?_⟩
  have same : ∀ act ∈ declared (scanSpec ["run"]), predictedName (scanSpec ["run"]) act = askedName (scanSpec ["run"]) act := by
    decide +kernel
  intro before act after split
  exact ⟨0, same act (by rw [split]; simp), nofun⟩

/-- Two actions whose names have one slug. -/
theorem second_action_numbered :
    (planVerdict repoHost (scanPlan ["run-it", "run_it"]) ⟨[], [], []⟩ (some [])).ok = true ∧
      New ⟨[], [], []⟩ "repo" ∧ DeviceSpecs.Accepted (scanSpec ["run-it", "run_it"]) ∧
      Declares (scanSpec ["run-it", "run_it"]) (scanPlan ["run-it", "run_it"]) ∧
      ¬ Predicts repoHost ⟨[], [], []⟩ "repo" (scanSpec ["run-it", "run_it"])
        (planVerdict repoHost (scanPlan ["run-it", "run_it"]) ⟨[], [], []⟩ (some [])).toolNames := by
  refine ⟨by decide +kernel, ⟨nofun, rfl⟩, by decide +kernel, ⟨by decide +kernel, by decide +kernel, by decide +kernel⟩, ?_⟩
  intro predicts
  have differ : ((toolMap (load repoHost ⟨[], [], []⟩ "repo" (scanSpec ["run-it", "run_it"]))).filter fun entry =>
      entry.2.deviceID = deviceIDOf repoHost (scanSpec ["run-it", "run_it"])) ≠
      (declared (scanSpec ["run-it", "run_it"])).map fun act =>
        (predictedName (scanSpec ["run-it", "run_it"]) act, tripleOf (deviceIDOf repoHost (scanSpec ["run-it", "run_it"])) act) := by
    decide +kernel
  exact differ predicts.named

end Predictions

end Countinghouse.PlanPrediction
