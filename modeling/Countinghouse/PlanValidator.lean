import Countinghouse.CompositionCheck
import Countinghouse.DeviceSpecs
import Countinghouse.JsonValues

/-!
lib/plan-validator.js: the check of a proposed module before any of its files is there. A plan
is any JSON value, as tools/call hands it over.
-/

namespace Countinghouse.PlanValidator

open CompositionCheck JsonValues PlainObject
open DeviceSpecs (markSeen)
open RedisMetering (Json)
open ToolRegistry (DeviceSpec Service slugify)

/-- What is left open: UUID.v5 of a friendly name, and the text of a value in a template. -/
structure Host where
  deviceIDForName : String → String
  shown : Json → String

structure Problem where
  stage : String
  module : Option String
  message : String
  fix : Option String
  deriving DecidableEq

def problem (message : String) (fix : Option String) : Problem := ⟨"validatePlan", none, message, fix⟩

variable (host : Host)

/-! Declared calls. -/
section Calls

def addressOf : Json → Address
  | .string text => .string text
  | value => .other (host.shown value)

/-- `specs[deviceIDForName(parsed.device)]` -/
def specOf (specs : Table DeviceSpec) (parsed : Parsed) : Option DeviceSpec :=
  specs.lookup (host.deviceIDForName parsed.device)

def serviceMatches (parsed : Parsed) (service : Service) : Bool :=
  labelOf service.urn = parsed.service && (service.actionList.getD []).any fun action => action.name = parsed.action

/-- Some service has the label and the action. -/
def matched (spec : Option DeviceSpec) (parsed : Parsed) : Bool :=
  match spec.bind DeviceSpec.serviceList with
  | none => false
  | some services => services.any (serviceMatches parsed)

def invalidAddress (address : Address) : Problem :=
  problem (quoted address.text ++ " is not a valid composition address -- expected " ++ ADDRESS_FORM ++ ".") none

def repeatedAddress (address : Address) : Problem :=
  problem ("plan.calls lists " ++ quoted address.text ++ " more than once.") (some "Remove the duplicate entry.")

def unresolvedAddress (address : Address) : Problem :=
  problem (quoted address.text ++ " does not match any tool currently loaded on this runtime.")
    (some "Check the module, service and action names, or load the target module first.")

/-- `calls.forEach`, with the addresses that were seen. -/
def addressProblems (specs : Option (Table DeviceSpec)) (seen : List String) : List Address → List Problem
  | [] => []
  | address :: rest =>
      match parseAddress address with
      | none => invalidAddress address :: addressProblems specs seen rest
      | some parsed =>
          (if address.text ∈ seen then [repeatedAddress address] else []) ++
            (match specs with
              | none => []
              | some specs => if matched (specOf host specs parsed) parsed then [] else [unresolvedAddress address]) ++
            addressProblems specs (markSeen seen address.text) rest

def callsProblems (plan : Json) (specs : Option (Table DeviceSpec)) : List Problem :=
  match memberOrNull plan "calls" with
  | .null => []
  | .array calls => addressProblems host specs [] (calls.map (addressOf host))
  | _ =>
      [problem "plan.calls must be an array of composition address strings."
        (some ("Each entry names a target this module may call, in " ++ ADDRESS_FORM ++ " form."))]

end Calls

/-! The proposed services. -/
section Services

/-- A text that is not empty, under this name. -/
def textAt (value : Json) (name : String) : Option String :=
  match member value name with
  | some (.string text) => if text = "" then none else some text
  | _ => none

/-- The entries of an array that is not empty. -/
def entriesAt (value : Json) (name : String) : Option (List Json) :=
  match member value name with
  | some (.array (entry :: entries)) => some (entry :: entries)
  | _ => none

def predictedToolName (deviceName serviceName actionName : String) : String :=
  slugify deviceName ++ "_" ++ slugify serviceName ++ "_" ++ slugify actionName

structure Findings where
  problems : List Problem
  toolNames : List String
  deriving DecidableEq

def Findings.add (first second : Findings) : Findings :=
  ⟨first.problems ++ second.problems, first.toolNames ++ second.toolNames⟩

def Findings.none : Findings := ⟨[], []⟩

def found (problems : List Problem) : Findings := ⟨problems, []⟩

/-- The plan's device, and the names of the tools on this runtime. -/
structure Setting where
  device : String
  existing : List String

/-- One named action of a service. -/
def actionFindings (setting : Setting) (service : String) (seen : List String) (name : String) (action : Json) :
    Findings :=
  let toolName := predictedToolName setting.device service name
  ⟨(if name ∈ seen then
      [problem ("action \"" ++ service ++ "." ++ name ++ "\" is declared twice.")
        (some "Action names are unique per service.")] else []) ++
    (if (textAt action "description").isNone then
      [problem ("action \"" ++ service ++ "." ++ name ++ "\" has no description.")
        (some ("description is what an LLM reads as the MCP tool description; " ++
          "an action without one is skipped when tools/list is built."))] else []) ++
    (if toolName ∈ setting.existing then
      [problem (quoted toolName ++ " is already a tool on this runtime.")
        (some "Rename the device, service or action so the generated tool name is unique.")] else []),
    [toolName]⟩

/-- `svc.actions.forEach` -/
def actionsFindings (setting : Setting) (i : Nat) (service : String) : Nat → List String → List Json → Findings
  | _, _, [] => .none
  | j, seen, action :: rest =>
      match textAt action "name" with
      | none =>
          (found [problem ("services[" ++ toString i ++ "].actions[" ++ toString j ++
            "].name must be a non-empty string.") none]).add (actionsFindings setting i service (j + 1) seen rest)
      | some name =>
          (actionFindings setting service seen name action).add
            (actionsFindings setting i service (j + 1) (markSeen seen name) rest)

/-- One named service of the plan. -/
def serviceFindings (setting : Setting) (i : Nat) (seen : List String) (name : String) (service : Json) : Findings :=
  (found (if name ∈ seen then
    [problem ("service short name " ++ quoted name ++ " is duplicate within this plan.")
      (some "Short names must be unique within a module -- the handler map keys off them.")] else [])).add
    (match entriesAt service "actions" with
      | none => found [problem ("service " ++ quoted name ++ " declares no actions.") none]
      | some actions => actionsFindings setting i name 0 [] actions)

/-- `plan.services.forEach` -/
def servicesFindings (setting : Setting) : Nat → List String → List Json → Findings
  | _, _, [] => .none
  | i, seen, service :: rest =>
      match textAt service "name" with
      | none =>
          (found [problem ("services[" ++ toString i ++ "].name must be a non-empty string.") none]).add
            (servicesFindings setting (i + 1) seen rest)
      | some name =>
          (serviceFindings setting i seen name service).add (servicesFindings setting (i + 1) (markSeen seen name) rest)

structure Verdict where
  ok : Bool
  problems : List Problem
  toolNames : List String
  deriving DecidableEq

def validatePlan (plan : Json) (existing : List String) (specs : Option (Table DeviceSpec)) : Verdict :=
  let calls := callsProblems host plan specs
  match textAt plan "device" with
  | none =>
      ⟨false, calls ++ [problem "plan.device must be a non-empty string."
        (some "This becomes the device friendlyName in api.json.")], []⟩
  | some device =>
      match entriesAt plan "services" with
      | none =>
          ⟨false, calls ++ [problem "plan.services must be a non-empty array."
            (some "A module exposes at least one service, each with at least one action.")], []⟩
      | some services =>
          let findings := servicesFindings ⟨device, existing⟩ 0 [] services
          ⟨(calls ++ findings.problems).isEmpty, calls ++ findings.problems, findings.toolNames⟩

end Services

/-! Addresses are resolved in two ways. -/
section Resolving

def planOf (addresses : List Json) : Json := .object [("calls", .array addresses)]

/-- `callsProblems` finds the address valid, and a match for it. -/
def Accepted (specs : Table DeviceSpec) (address : String) : Prop :=
  callsProblems host (planOf [.string address]) (some specs) = []

/-- `parseAddress` and `resolveAddress` take the address to a service. -/
def Resolved (specs : Table DeviceSpec) (address : String) : Prop :=
  ∃ parsed, parseAddress (.string address) = some parsed ∧
    ∃ serviceID, resolveAddress (specOf host specs parsed) parsed = .ok serviceID

/-- The services of a device that have the address's label. -/
def labelled (spec : Option DeviceSpec) (parsed : Parsed) : List Service :=
  ((spec.bind DeviceSpec.serviceList).getD []).filter fun service => labelOf service.urn = parsed.service

/-- Several services have the label, and one of them the action. -/
def Ambiguous (specs : Table DeviceSpec) (address : String) : Prop :=
  ∃ parsed, parseAddress (.string address) = some parsed ∧
    1 < (labelled (specOf host specs parsed) parsed).length ∧
    ∃ service ∈ labelled (specOf host specs parsed) parsed, ∃ action ∈ service.actionList.getD [],
      action.name = parsed.action

theorem matched_iff (spec : Option DeviceSpec) (parsed : Parsed) :
    matched spec parsed = true ↔
      ∃ service ∈ labelled spec parsed, ∃ action ∈ service.actionList.getD [], action.name = parsed.action := by
  unfold matched labelled
  cases spec.bind DeviceSpec.serviceList with
  | none => simp
  | some services => simp [serviceMatches, and_assoc]

/-- Exactly one service has the label, and it has the action. -/
theorem resolved_iff (spec : Option DeviceSpec) (parsed : Parsed) :
    (∃ serviceID, resolveAddress spec parsed = .ok serviceID) ↔
      ∃ service, labelled spec parsed = [service] ∧ ∃ action ∈ service.actionList.getD [], action.name = parsed.action := by
  unfold resolveAddress labelled
  cases spec.bind DeviceSpec.serviceList with
  | none => simp
  | some services =>
      simp only [Option.getD_some]
      cases services.filter fun service => labelOf service.urn = parsed.service with
      | nil => simp
      | cons service others =>
          cases others with
          | nil =>
              by_cases declared : ∃ action ∈ service.actionList.getD [], action.name = parsed.action
              · simp [declared]
              · simp [declared]
          | cons second rest => simp

theorem accepted_iff (specs : Table DeviceSpec) (address : String) :
    Accepted host specs address ↔
      ∃ parsed, parseAddress (.string address) = some parsed ∧ matched (specOf host specs parsed) parsed = true := by
  simp only [Accepted, callsProblems, planOf, memberOrNull, member, List.lookup_cons_self, Option.getD_some, List.map_cons,
    List.map_nil, addressOf, addressProblems]
  cases parseAddress (.string address) with
  | none => simp
  | some parsed => simp

/-- The two agree on an address exactly when no label of it is ambiguous. -/
theorem plan_calls_resolve_iff (specs : Table DeviceSpec) (address : String) :
    (Accepted host specs address ↔ Resolved host specs address) ↔ ¬ Ambiguous host specs address := by
  rw [accepted_iff]
  unfold Resolved Ambiguous
  cases parseAddress (.string address) with
  | none => simp
  | some parsed =>
      simp only [Option.some.injEq, exists_eq_left', matched_iff, resolved_iff]
      generalize labelled (specOf host specs parsed) parsed = services
      match services with
      | [] => simp
      | [service] => simp
      | first :: second :: rest => simp

def repoHost : Host := ⟨fun name => name ++ "-id", fun _ => ""⟩

/-- Two vendors' services with one label, of which only the second has the action. -/
def twoScans : Table DeviceSpec :=
  [("repo-id", ⟨some "repo", some [
    ⟨"urn:a:serviceID:scan", some [⟨"list", none, none⟩]⟩, ⟨"urn:b:serviceID:scan", some [⟨"run", none, none⟩]⟩]⟩)]

theorem ambiguous_call_accepted :
    ¬ (Accepted repoHost twoScans "repo/scan.run" ↔ Resolved repoHost twoScans "repo/scan.run") := by
  have accepted : callsProblems repoHost (planOf [.string "repo/scan.run"]) (some twoScans) = [] := by decide +kernel
  intro agree
  obtain ⟨parsed, isParsed, resolved⟩ := agree.mp accepted
  have same : parseAddress (.string "repo/scan.run") = some ⟨"repo", "scan", "run"⟩ := by decide +kernel
  cases same.symm.trans isParsed
  obtain ⟨service, one, _⟩ := (resolved_iff _ _).mp resolved
  have two : (labelled (specOf repoHost twoScans ⟨"repo", "scan", "run"⟩) ⟨"repo", "scan", "run"⟩).length = 2 := by
    decide +kernel
  rw [one] at two
  cases two

end Resolving

end Countinghouse.PlanValidator
