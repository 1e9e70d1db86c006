import Mathlib
import Countinghouse.FreshNames
import Countinghouse.PlainObject

/-!
Tool names. lib/mcp/tool-registry.js names a tool after its device, service and action, and
adds `_2`, `_3` and so on where that name is taken. It goes through the devices in the order
of `getAllDeviceSpecs` of lib/device-manager.js: those that are online, in the order in which
their workers came online, and then the specs that lib/module-supervisor.js retains for
modules that are restarting or suspended.

No device id (a UUID) or service URN is an array index, so their objects keep the order of insertion;
the name of a module may be one, and such modules are the first in the supervisor's records.
-/

namespace Countinghouse.ToolRegistry

open FreshNames PlainObject

/-! Names. -/
section Names

/-- `toLowerCase`, as far as it has letters of a slug. -/
def lowerCase (c : Char) : List Char :=
  if c = '\u212A' then ['k']
  else if c = '\u0130' then ['i', '\u0307']
  else [c.toLower]

def isSlugChar (c : Char) : Bool := c.isDigit || ('a' ≤ c && c ≤ 'z')

/-- Every run of other characters becomes one underscore. -/
def collapse : List Char → List Char
  | [] => []
  | c :: rest =>
      if isSlugChar c then c :: collapse rest
      else
        match collapse rest with
        | '_' :: tail => '_' :: tail
        | tail => '_' :: tail

def slugify (text : String) : String :=
  let out := ((collapse (text.toList.flatMap lowerCase)).dropWhile (· == '_')).reverse.dropWhile (· == '_')
  if out = [] then "x" else String.ofList out.reverse

/-- The slug of what follows the last colon. -/
def serviceLabel (urn : String) : String :=
  slugify (String.ofList (urn.toList.reverse.takeWhile (· ≠ ':')).reverse)

/-- White space of `trim`. -/
def isSpace (c : Char) : Bool :=
  c ∈ ['\t', '\n', '\u000B', '\u000C', '\r', ' ', '\u00A0', '\u1680', '\u2028', '\u2029', '\u202F', '\u205F',
    '\u3000', '\uFEFF'] || ('\u2000' ≤ c && c ≤ '\u200A')

/-- The names that `dedupeName` tries. -/
def suffixed (name : String) : Nat → String
  | 0 => name
  | place + 1 => name ++ "_" ++ toString (place + 2)

theorem suffixed_longer (name : String) (place : Nat) : suffixed name (place + 1) ≠ name := by
  intro same
  have lengths := congrArg String.length same
  have underscore : "_".length = 1 := rfl
  simp only [suffixed, String.length_append] at lengths
  omega

theorem suffixed_distinct : Distinct suffixed := by
  intro name place other same
  cases place with
  | zero =>
      cases other with
      | zero => rfl
      | succ other => exact absurd same.symm (suffixed_longer name other)
  | succ place =>
      cases other with
      | zero => exact absurd same (suffixed_longer name place)
      | succ other =>
          simp only [suffixed, String.append_right_inj] at same
          have := Nat.repr_injective same
          omega

/-- `dedupeName`: the name, or the first of its suffixed ones that is not in use. -/
def dedupeName (usedNames : List String) (name : String) : String := firstFree suffixed usedNames name

end Names

/-! Specs, and the tools of the devices. -/
section Tools

structure Action where
  name : String
  /-- `none` when it is no string. -/
  description : Option String
  /-- The pointer of its output schema, `schemaPathFor(action, 'output')`. -/
  output : Option String
  deriving DecidableEq

structure Service where
  urn : String
  actionList : Option (List Action)
  deriving DecidableEq

structure DeviceSpec where
  friendlyName : Option String
  serviceList : Option (List Service)
  deriving DecidableEq

structure Triple where
  deviceID : String
  serviceID : String
  actionName : String
  deriving DecidableEq

structure Target extends Triple where
  description : String
  action : Action
  deriving DecidableEq

def PLATFORM_TOOL_NAMES : List String := ["countinghouse_check_balance"]

def AUTHORING_TOOL_NAMES : List String :=
  ["countinghouse_validate_plan", "countinghouse_validate_module", "countinghouse_load_module",
    "countinghouse_call_tool"]

def reservedNames : List String := PLATFORM_TOOL_NAMES ++ AUTHORING_TOOL_NAMES

/-- `spec.device.friendlyName || deviceID` -/
def deviceSlug (deviceID : String) (spec : DeviceSpec) : String :=
  match spec.friendlyName with
  | none => slugify deviceID
  | some name => if name = "" then slugify deviceID else slugify name

/-- An action without a description is skipped. -/
def actionTool (deviceID slug : String) (service : Service) (action : Action) : Option (Target × String) :=
  match action.description with
  | none => none
  | some text =>
      if text.toList.all isSpace then none
      else
        some (⟨⟨deviceID, service.urn, action.name⟩, text, action⟩,
          slug ++ "_" ++ serviceLabel service.urn ++ "_" ++ slugify action.name)

def serviceTools (deviceID slug : String) (service : Service) : List (Target × String) :=
  (service.actionList.getD []).filterMap (actionTool deviceID slug service)

/-- What the loops of `buildToolTargets` come to, each tool with the name it asks for. -/
def deviceTools (deviceID : String) (spec : DeviceSpec) : List (Target × String) :=
  (spec.serviceList.getD []).flatMap (serviceTools deviceID (deviceSlug deviceID spec))

def listedTools (specs : Table DeviceSpec) : List (Target × String) :=
  specs.flatMap fun entry => deviceTools entry.1 entry.2

def buildToolTargets (specs : Table DeviceSpec) : Table Target := assign suffixed reservedNames (listedTools specs)

end Tools

/-! Names of tools are no names of `Object.prototype`: they have an underscore, but not in
front. -/
section Shape

theorem slugify_head (text : String) : ∃ first rest, (slugify text).toList = first :: rest ∧ first ≠ '_' := by
  have tidy : ∀ chars : List Char, ∀ first rest,
      ((chars.dropWhile (· == '_')).reverse.dropWhile (· == '_')).reverse = first :: rest → first ≠ '_' := by
    intro chars first rest isSlug
    have front := List.reverse_prefix.mpr
      (List.dropWhile_suffix (· == '_') (l := (chars.dropWhile (· == '_')).reverse))
    rw [isSlug, List.reverse_reverse] at front
    obtain ⟨more, whole⟩ := front
    have head := List.head?_dropWhile_not (· == '_') chars
    rw [← whole] at head
    simpa using head
  unfold slugify
  generalize collapse (text.toList.flatMap lowerCase) = chars
  simp only
  split
  · exact ⟨'x', [], rfl, by decide⟩
  · rename_i some
    cases isSlug : ((chars.dropWhile (· == '_')).reverse.dropWhile (· == '_')).reverse with
    | nil => exact absurd (List.reverse_eq_nil_iff.mp isSlug) some
    | cons first rest => exact ⟨first, rest, by simp, tidy chars first rest isSlug⟩

theorem listed_shape {specs : Table DeviceSpec} {tool : Target × String} (listed : tool ∈ listedTools specs) :
    ∃ first rest, tool.2.toList = first :: rest ∧ first ≠ '_' ∧ '_' ∈ rest := by
  obtain ⟨entry, _, ofDevice⟩ := List.mem_flatMap.mp listed
  obtain ⟨service, _, ofService⟩ := List.mem_flatMap.mp ofDevice
  obtain ⟨action, _, isTool⟩ := List.mem_filterMap.mp ofService
  have slug : ∃ first rest, (deviceSlug entry.1 entry.2).toList = first :: rest ∧ first ≠ '_' := by
    unfold deviceSlug
    split
    · exact slugify_head _
    · split <;> exact slugify_head _
  obtain ⟨first, rest, isSlug, head⟩ := slug
  unfold actionTool at isTool
  split at isTool
  · cases isTool
  · split at isTool
    · cases isTool
    · simp only [Option.some.injEq] at isTool
      rw [← isTool]
      refine ⟨first, rest ++ ['_'] ++ (serviceLabel service.urn).toList ++ ['_'] ++ (slugify action.name).toList, ?_,
        head, by simp⟩
      simp only [String.toList_append, isSlug, List.cons_append]
      rfl

/-- No name that a tool may get is a name of `Object.prototype`. -/
theorem series_not_inherited {specs : Table DeviceSpec} {tool : Target × String} (listed : tool ∈ listedTools specs)
    (place : Nat) : suffixed tool.2 place ∉ inheritedNames := by
  obtain ⟨first, rest, isAsked, head, underscore⟩ := listed_shape listed
  have shape : ∃ more, (suffixed tool.2 place).toList = first :: more ∧ '_' ∈ more := by
    cases place with
    | zero => exact ⟨rest, isAsked, underscore⟩
    | succ place =>
        refine ⟨rest ++ ['_'] ++ (toString (place + 2)).toList, ?_, by simp⟩
        simp only [suffixed, String.toList_append, isAsked, List.cons_append]
        rfl
  obtain ⟨more, isList, inside⟩ := shape
  have apart : ∀ known ∈ inheritedNames, known.toList.head? = some '_' ∨ '_' ∉ known.toList := by decide
  intro inherited
  rcases apart _ inherited with front | none
  · rw [isList] at front
    exact head (by simpa using front)
  · rw [isList] at none
    exact none (List.mem_cons_of_mem _ inside)

theorem registered_not_inherited {specs : Table DeviceSpec} {name : String} {target : Target}
    (registered : (buildToolTargets specs).lookup name = some target) : name ∉ inheritedNames := by
  have nodup := (assign_fresh suffixed_distinct (listedTools specs) reservedNames).1
  obtain ⟨asked, place, listed, isName⟩ := mem_assign suffixed_distinct ((lookup_iff_mem nodup name target).mp registered)
  rw [isName]
  exact series_not_inherited listed place

end Shape

/-! The devices that are listed. -/
section Listing

/-- A supervisor record; `running` is its state, else restarting or suspended. -/
structure Record where
  running : Bool
  specs : Table DeviceSpec
  deriving DecidableEq

/-- A module has one worker at a time, which goes by the module's name. -/
structure State where
  deviceMap : Table String
  /-- The `deviceList` of each worker. -/
  deviceLists : Table (Table DeviceSpec)
  records : Table Record
  deriving DecidableEq

def State.deviceList (s : State) (worker : String) : Table DeviceSpec := (s.deviceLists.lookup worker).getD []

def retainedSpecs (records : Table Record) : Table DeviceSpec :=
  (enumerated records).foldl (fun out entry => if entry.2.running then out else assignAll out entry.2.specs) []

/-- `if (result[deviceID] == null) result[deviceID] = spec` -/
def addMissing (result : Table DeviceSpec) (entry : String × DeviceSpec) : Table DeviceSpec :=
  if result.any fun known => known.1 = entry.1 then result else result ++ [entry]

def getAllDeviceSpecs (s : State) : Table DeviceSpec :=
  let online := s.deviceMap.foldl (fun result entry => assignAll result (s.deviceList entry.2)) []
  (retainedSpecs s.records).foldl addMissing online

/-- What tools/list shows and tools/call looks a name up in. -/
def toolTargets (s : State) : Table Target := buildToolTargets (getAllDeviceSpecs s)

def toolMap (s : State) : Table Triple := (toolTargets s).map fun entry => (entry.1, entry.2.toTriple)

/-- The actions that are listed, in order, with the names they ask for. -/
def listing (s : State) : List (Triple × String) :=
  (listedTools (getAllDeviceSpecs s)).map fun tool => (tool.1.toTriple, tool.2)

end Listing

/-! What happens to a module. -/
section Lifecycle

/-- `deviceonline` of a worker. A device of another module is not replaced. -/
def online (worker : String) (s : State) (device : String × DeviceSpec) : State :=
  match s.deviceMap.lookup device.1 with
  | some owner =>
      if owner = worker then
        { s with deviceLists := setKey s.deviceLists worker (setKey (s.deviceList worker) device.1 device.2) }
      else s
  | none =>
      { s with
        deviceMap := setKey s.deviceMap device.1 worker
        deviceLists := setKey s.deviceLists worker (setKey (s.deviceList worker) device.1 device.2) }

/-- `onPurgeDevice` -/
def purge (s : State) (worker : String) : State :=
  { s with
    deviceMap := s.deviceMap.filter fun entry => entry.2 ≠ worker
    deviceLists := setKey s.deviceLists worker
      ((s.deviceList worker).filter fun device => s.deviceMap.lookup device.1 ≠ some worker) }

/-- `track`, and the devices come online. -/
def loaded (s : State) (name : String) (devices : List (String × DeviceSpec)) : State :=
  devices.foldl (online name) { s with records := setKey s.records name ⟨true, []⟩ }

inductive Event where
  /-- A worker ends unexpectedly; the module is restarting or suspended from then on. -/
  | exit (name : String)
  /-- `suspend`: a restart that cannot succeed. -/
  | suspend (name : String)
  /-- The supervisor has started the module again. -/
  | restart (name : String) (devices : List (String × DeviceSpec))
  /-- An operator has loaded the module again. -/
  | reload (name : String) (devices : List (String × DeviceSpec))

def step (s : State) : Event → State
  | .exit name =>
      if s.deviceMap.any fun entry => entry.2 = name then
        { purge s name with records := setKey s.records name ⟨false, assignAll [] (s.deviceList name)⟩ }
      else s
  | .suspend name =>
      match s.records.lookup name with
      | none => s
      | some record => { s with records := setKey s.records name { record with running := false } }
  | .restart name devices =>
      match s.records.lookup name with
      | some ⟨false, _⟩ => loaded s name devices
      | _ => s
  | .reload name devices => loaded (purge { s with records := deleteKey s.records name } name) name devices

def run : List Event → State → State
  | [], s => s
  | event :: rest, s => run rest (step s event)

/-- The states between the events, with the event of each. -/
def steps : List Event → State → List (State × Event)
  | [], _ => []
  | event :: rest, s => (s, event) :: steps rest (step s event)

end Lifecycle

/-! The names of the tools. -/
section Stability

theorem assign_map {Item Other : Type} (f : Item → Other) (used : List String) (items : List (Item × String)) :
    (assign suffixed used items).map (fun entry => (entry.1, f entry.2)) =
      assign suffixed used (items.map fun item => (f item.1, item.2)) := by
  induction items generalizing used with
  | nil => rfl
  | cons item rest ih => simp only [assign, List.map_cons, ih]

theorem tool_map_eq (s : State) : toolMap s = assign suffixed reservedNames (listing s) :=
  assign_map Target.toTriple reservedNames (listedTools (getAllDeviceSpecs s))

/-- The event keeps the order of listed actions that compete for a name: both ask for the
same one, or one asks for a name that the other can get with a suffix. -/
def KeepsRivals (s : State) (event : Event) : Prop := Shuffled suffixed (listing s) (listing (step s event))

theorem step_names (s : State) (event : Event) (keeps : KeepsRivals s event) (name : String) :
    (toolMap (step s event)).lookup name = (toolMap s).lookup name := by
  rw [tool_map_eq, tool_map_eq]
  have perm := shuffled_assign suffixed_distinct keeps reservedNames
  exact (lookup_perm perm (assign_fresh suffixed_distinct _ _).1 name).symm

/-- A name denotes the same action after any events that keep the order of rivals. -/
theorem tool_names_stable (events : List Event) (s : State)
    (meets : ∀ entry ∈ steps events s, KeepsRivals entry.1 entry.2) (name : String) :
    (toolMap (run events s)).lookup name = (toolMap s).lookup name := by
  induction events generalizing s with
  | nil => rfl
  | cons event rest ih =>
      have later := ih (step s event) fun entry member => meets entry (List.mem_cons_of_mem _ member)
      rw [run, later]
      exact step_names s event (meets (s, event) List.mem_cons_self) name

def scanSpec (friendlyName : String) : DeviceSpec :=
  ⟨some friendlyName, some [⟨"urn:example-com:serviceId:scan", some [⟨"run", some "Scans a repository.", none⟩]⟩]⟩

/-- Two modules with a tool each, whose names have the same slug. -/
def twoScans : State :=
  loaded (loaded ⟨[], [], []⟩ "repo-scan" [("a1", scanSpec "repo-scan")]) "repo_scan" [("b2", scanSpec "repo_scan")]

def scanRun (deviceID : String) : Triple := ⟨deviceID, "urn:example-com:serviceId:scan", "run"⟩

/-- The first one's worker ends, and each name denotes the other module's tool. -/
theorem names_change_hands :
    (toolMap twoScans).lookup "repo_scan_scan_run" = some (scanRun "a1") ∧
      (toolMap twoScans).lookup "repo_scan_scan_run_2" = some (scanRun "b2") ∧
      (toolMap (run [.exit "repo-scan"] twoScans)).lookup "repo_scan_scan_run" = some (scanRun "b2") ∧
      (toolMap (run [.exit "repo-scan"] twoScans)).lookup "repo_scan_scan_run_2" = some (scanRun "a1") := by
  decide +kernel

/-- The second one's worker ends and is started again. -/
def secondRestarts : List Event := [.exit "repo_scan", .restart "repo_scan" [("b2", scanSpec "repo_scan")]]

theorem second_keeps_rivals : ∀ entry ∈ steps secondRestarts twoScans, KeepsRivals entry.1 entry.2 := by
  have ended : listing (step twoScans (.exit "repo_scan")) = listing twoScans := by decide +kernel
  have restarted : listing (step (step twoScans (.exit "repo_scan"))
      (.restart "repo_scan" [("b2", scanSpec "repo_scan")])) = listing (step twoScans (.exit "repo_scan")) := by
    decide +kernel
  intro entry member
  simp only [secondRestarts, steps, List.mem_cons, List.not_mem_nil, or_false] at member
  rcases member with rfl | rfl
  · simp only [KeepsRivals, ended]
    exact .refl _
  · simp only [KeepsRivals, restarted]
    exact .refl _

theorem second_name_stays :
    (toolMap (run secondRestarts twoScans)).lookup "repo_scan_scan_run_2" = some (scanRun "b2") :=
  (tool_names_stable secondRestarts twoScans second_keeps_rivals _).trans (by decide +kernel)

end Stability

end Countinghouse.ToolRegistry
