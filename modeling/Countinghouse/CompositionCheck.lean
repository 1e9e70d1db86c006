import Mathlib.Logic.Function.Basic
import Countinghouse.ToolRegistry

/-!
The check of declared calls at start-up: onAllModulesDiscovered and verifyComposition of
lib/device-manager.js, parseAddress and resolveAddress of lib/call-address.js. Every loaded
device is checked against `deviceMap`, and a device that fails is taken off the same map.

The devices come in any order, and the AuthProvider answers its requests in any order, or
while it is being asked, as FileAuthProvider does; what it answers to a request is always the
same. `bound` has the devices that setComposition was called for with a composition, `errors`
what was logged.
-/

namespace Countinghouse.CompositionCheck

open PlainObject ToolRegistry

/-! Addresses. -/
section Addresses

/-- An entry of "countinghouse.calls": its text, when it is no string. -/
inductive Address where
  | string (text : String)
  | other (text : String)
  deriving DecidableEq

/-- `${address}` -/
def Address.text : Address → String
  | .string text | .other text => text

structure Parsed where
  device : String
  service : String
  action : String
  deriving DecidableEq

def ADDRESS_FORM : String := "<module>/<service>.<action>"

def split (separator : Char) (text : String) : List String := (text.toList.splitOn separator).map String.ofList

def parseAddress : Address → Option Parsed
  | .other _ => none
  | .string text =>
      match split '/' text with
      | [device, rest] =>
          match split '.' rest with
          | [service, action] =>
              if device = "" || service = "" || action = "" || '.' ∈ device.toList then none
              else some ⟨device, service, action⟩
          | _ => none
      | _ => none

/-- `urn.split(':').pop()` -/
def labelOf (urn : String) : String := String.ofList (urn.toList.reverse.takeWhile (· ≠ ':')).reverse

def quoted (text : String) : String := "\"" ++ text ++ "\""

/-- The service's id, or the message. -/
def resolveAddress (spec : Option DeviceSpec) (parsed : Parsed) : Except String String :=
  match spec.bind DeviceSpec.serviceList with
  | none => .error ("module " ++ quoted parsed.device ++ " declares no services")
  | some services =>
      match services.filter fun service => labelOf service.urn = parsed.service with
      | [] =>
          .error ("module " ++ quoted parsed.device ++ " has no service " ++ quoted parsed.service ++
            " -- it declares: " ++ ", ".intercalate (services.map fun service => labelOf service.urn))
      | [service] =>
          let actions := (service.actionList.getD []).map Action.name
          if parsed.action ∈ actions then .ok service.urn
          else
            .error ("service " ++ quoted parsed.service ++ " on module " ++ quoted parsed.device ++
              " has no action " ++ quoted parsed.action ++ " -- it declares: " ++ ", ".intercalate actions)
      | many =>
          .error ("service label " ++ quoted parsed.service ++ " is ambiguous on module " ++ quoted parsed.device ++
            " -- it matches " ++ " and ".intercalate (many.map Service.urn) ++ ". Rename one of them.")

end Addresses

/-! One device's check. -/
section Checks

/-- `calls` is nothing unless it is an array. -/
structure Device where
  spec : Option DeviceSpec
  calls : Option (List Address)
  packageName : Option String
  modulePath : String
  online : Bool

def Device.declared (device : Device) : List Address := device.calls.getD []

/-- `spec.device.friendlyName` -/
def Device.friendlyName (device : Device) : Option String := device.spec.bind DeviceSpec.friendlyName

structure Identity where
  apiKey : Option String
  conflicts : Option (List String)

/-- What authenticate is asked about. -/
structure Hop where
  targetID : String
  serviceID : String
  action : String
  deriving DecidableEq

/-- The AuthProvider and what it is named and configured with; `deviceIDForName` makes a UUID of the name. `composes`
unless identityForModule is that of the base class. -/
structure Setup where
  composes : Bool
  identityForModule : String → Except String Identity
  authenticate : String → Hop → Except String Bool
  authProvider : String
  authConfigPath : String
  deviceIDForName : String → String

/-- An error of the provider's own, or `new CHError('MODULE_COMPOSITION_INVALID', module, reason)`. -/
inductive Refusal where
  | provider (error : String)
  | invalid (module reason : String)

structure Composition where
  identity : String
  allowed : List String
  deriving DecidableEq

variable (setup : Setup)

/-- What a declared address stands for among these devices, or the reason that it stands for nothing. -/
def hopFor (map : Table Device) (modulePath : String) (address : Address) : Except String Hop :=
  match parseAddress address with
  | none =>
      .error (quoted address.text ++ " in " ++ modulePath ++
        "/package.json's \"countinghouse.calls\" is not a valid address -- expected " ++ ADDRESS_FORM)
  | some parsed =>
      let targetID := setup.deviceIDForName parsed.device
      match (map.lookup targetID).filter Device.online with
      | none =>
          .error ("declares " ++ quoted address.text ++ " in " ++ modulePath ++ "/package.json, but module " ++
            quoted parsed.device ++ " is not loaded")
      | some target =>
          match resolveAddress target.spec parsed with
          | .error message =>
              .error ("declares " ++ quoted address.text ++ " in " ++ modulePath ++ "/package.json: " ++ message)
          | .ok serviceID => .ok ⟨targetID, serviceID, parsed.action⟩

/-- All addresses, or the first reason; the later ones are looked up as well, to no effect. -/
def hopsFor (map : Table Device) (modulePath : String) : List Address → Except String (List (Address × Hop))
  | [] => .ok []
  | address :: rest =>
      match hopFor setup map modulePath address with
      | .error reason => .error reason
      | .ok hop =>
          match hopsFor map modulePath rest with
          | .error reason => .error reason
          | .ok hops => .ok ((address, hop) :: hops)

def noName (device : Device) : Refusal :=
  .invalid (device.packageName.getD "null")
    ("declares \"countinghouse.calls\" in package.json (at " ++ device.modulePath ++
      "/package.json), but its own api.json has no device.friendlyName to bind the composition to.")

def unsupported (name : String) : Refusal :=
  .invalid name
    ("it declares \"countinghouse.calls\" in package.json, but the configured auth backend (--authProvider " ++
      setup.authProvider ++ ") does not implement module composition (no identityForModule). Use --authProvider file or " ++
      "sqlite, or add identityForModule to it.")

def claimedTwice (name : String) (conflicts : List String) : Refusal :=
  .invalid name
    ("more than one auth identity claims this module in \"runsModules\": " ++ ", ".intercalate conflicts ++
      ". Exactly one must -- edit " ++ setup.authConfigPath ++ " so only one does.")

def unclaimed (name : String) (declared : Nat) : Refusal :=
  .invalid name
    ("it declares " ++ toString declared ++ " composition target(s) in \"countinghouse.calls\" (package.json is fine " ++
      "as-is), but no auth identity in " ++ setup.authConfigPath ++ " lists " ++ quoted name ++
      " in \"runsModules\". Add it there, to the identity you want its inner hops authorized as.")

def ungranted (name key : String) (address : Address) (hop : Hop) : Refusal :=
  .invalid name
    ("identity " ++ quoted key ++ " has no grant to " ++ quoted address.text ++ ". Add device " ++ hop.targetID ++
      " (module " ++ quoted (((parseAddress address).map Parsed.device).getD "") ++ ") to its \"devices\" in " ++
      setup.authConfigPath ++ ".")

/-- `allowed[address] = true` -/
def allow (allowed : List String) (address : Address) : List String :=
  if address.text ∈ allowed then allowed else allowed ++ [address.text]

/-- The addresses with each request answered before the next address is looked up. -/
def hopsAtOnce (map : Table Device) (modulePath name key : String) :
    List Address → List String → Except Refusal (List String)
  | [], allowed => .ok allowed
  | address :: rest, allowed =>
      match hopFor setup map modulePath address with
      | .error reason => .error (.invalid name reason)
      | .ok hop =>
          match setup.authenticate key hop with
          | .error error => .error (.provider error)
          | .ok false => .error (ungranted setup name key address hop)
          | .ok true => hopsAtOnce map modulePath name key rest (allow allowed address)

end Checks

/-! The pass over all devices. -/
section Pass

/-- How far the check of a device has come. -/
inductive Stage where
  | unstarted
  /-- identityForModule has been asked. -/
  | identity (device : Device) (name : String)
  /-- authenticate has been asked for these addresses and has not answered yet. -/
  | hops (device : Device) (name key : String) (waiting : List (Address × Hop)) (allowed : List String)
  | passed
  | failed

structure State where
  deviceMap : Table Device
  stage : String → Stage
  bound : List (String × Composition)
  errors : List Refusal

def start (deviceMap : Table Device) : State := ⟨deviceMap, fun _ => .unstarted, [], []⟩

inductive Event where
  /-- The enumeration comes to this device. -/
  | verify (deviceID : String)
  /-- identityForModule answers; the requests that follow are answered at once or wait. -/
  | identity (deviceID : String) (atOnce : Bool)
  /-- authenticate answers one of the requests that it has not answered. -/
  | authenticated (deviceID : String) (place : Nat)

def Event.deviceID : Event → String
  | .verify deviceID | .identity deviceID _ | .authenticated deviceID _ => deviceID

variable (setup : Setup)

def State.to (s : State) (deviceID : String) (stage : Stage) : State :=
  { s with stage := Function.update s.stage deviceID stage }

/-- `callback(err)`: the device is purged. -/
def State.fail (s : State) (deviceID : String) (error : Refusal) : State :=
  { s.to deviceID .failed with deviceMap := deleteKey s.deviceMap deviceID, errors := s.errors ++ [error] }

/-- `callback(null, composition)` -/
def State.pass (s : State) (deviceID : String) (composition : Option Composition) : State :=
  { s.to deviceID .passed with bound := s.bound ++ (composition.map fun composition => (deviceID, composition)).toList }

/-- verifyComposition up to its request for the identity. -/
def State.verify (s : State) (deviceID : String) (device : Device) : State :=
  if device.declared = [] then s.pass deviceID none
  else
    match device.friendlyName with
    | none => s.fail deviceID (noName device)
    | some name =>
        if !setup.composes then s.fail deviceID (unsupported setup name)
        else s.to deviceID (.identity device name)

def State.identified (s : State) (deviceID : String) (device : Device) (name : String) (atOnce : Bool) : State :=
  match setup.identityForModule name with
  | .error error => s.fail deviceID (.provider error)
  | .ok ⟨_, some conflicts⟩ => s.fail deviceID (claimedTwice setup name conflicts)
  | .ok ⟨none, none⟩ => s.fail deviceID (unclaimed setup name device.declared.length)
  | .ok ⟨some key, none⟩ =>
      if atOnce then
        match hopsAtOnce setup s.deviceMap device.modulePath name key device.declared [] with
        | .error error => s.fail deviceID error
        | .ok allowed => s.pass deviceID (some ⟨key, allowed⟩)
      else
        match hopsFor setup s.deviceMap device.modulePath device.declared with
        | .error reason => s.fail deviceID (.invalid name reason)
        | .ok waiting => s.to deviceID (.hops device name key waiting [])

def State.authenticated (s : State) (deviceID : String) (device : Device) (name key : String)
    (waiting : List (Address × Hop)) (allowed : List String) (place : Nat) : State :=
  match waiting[place]? with
  | none => s
  | some (address, hop) =>
      match setup.authenticate key hop with
      | .error error => s.fail deviceID (.provider error)
      | .ok false => s.fail deviceID (ungranted setup name key address hop)
      | .ok true =>
          match waiting.eraseIdx place with
          | [] => s.pass deviceID (some ⟨key, allow allowed address⟩)
          | waiting => s.to deviceID (.hops device name key waiting (allow allowed address))

def State.step (s : State) : Event → State
  | .verify deviceID =>
      match s.stage deviceID, s.deviceMap.lookup deviceID with
      | .unstarted, some device => s.verify setup deviceID device
      | _, _ => s
  | .identity deviceID atOnce =>
      match s.stage deviceID with
      | .identity device name => s.identified setup deviceID device name atOnce
      | _ => s
  | .authenticated deviceID place =>
      match s.stage deviceID with
      | .hops device name key waiting allowed =>
          s.authenticated setup deviceID device name key waiting allowed place
      | _ => s

def State.run (s : State) (events : List Event) : State := events.foldl (State.step setup) s

/-- Every device of the map has its verdict. -/
def Finished (deviceMap : Table Device) (s : State) : Prop :=
  ∀ deviceID device, deviceMap.lookup deviceID = some device → s.stage deviceID = .passed ∨ s.stage deviceID = .failed

/-- Each target that a bound device has declared is there, with the action. -/
def Sound (deviceMap : Table Device) (s : State) : Prop :=
  ∀ entry ∈ s.bound, ∀ device, deviceMap.lookup entry.1 = some device → ∀ address ∈ device.declared,
    ∃ hop, hopFor setup s.deviceMap device.modulePath address = .ok hop

/-- The devices that are left do not depend on the order. -/
def OrderFree (deviceMap : Table Device) : Prop :=
  ∀ first second, Finished deviceMap ((start deviceMap).run setup first) →
    Finished deviceMap ((start deviceMap).run setup second) → ∀ deviceID,
    ((start deviceMap).run setup first).deviceMap.lookup deviceID =
      ((start deviceMap).run setup second).deviceMap.lookup deviceID

/-- What a device declares holds among these devices, whatever they declare themselves. -/
def Verifies (map : Table Device) (device : Device) : Prop :=
  device.declared = [] ∨ ∃ name key, device.friendlyName = some name ∧ setup.composes = true ∧
    setup.identityForModule name = .ok ⟨some key, none⟩ ∧ ∀ address ∈ device.declared,
      ∃ hop, hopFor setup map device.modulePath address = .ok hop ∧ setup.authenticate key hop = .ok true

/-- No device that verifies among the loaded devices has a target that does not. -/
def TargetsVerify (deviceMap : Table Device) : Prop :=
  ∀ deviceID device, deviceMap.lookup deviceID = some device → Verifies setup deviceMap device →
    ∀ address ∈ device.declared, ∀ hop, hopFor setup deviceMap device.modulePath address = .ok hop →
      ∀ target, deviceMap.lookup hop.targetID = some target → Verifies setup deviceMap target

end Pass

/-! What an address stands for. -/
section Hops

variable {setup : Setup} {map other : Table Device} {modulePath : String} {address : Address} {hop : Hop}

theorem hopFor_ok_iff : hopFor setup map modulePath address = .ok hop ↔
    ∃ parsed target, parseAddress address = some parsed ∧ hop.targetID = setup.deviceIDForName parsed.device ∧
      map.lookup hop.targetID = some target ∧ target.online = true ∧
      resolveAddress target.spec parsed = .ok hop.serviceID ∧ hop.action = parsed.action := by
  constructor
  · intro stands
    unfold hopFor at stands
    split at stands
    · cases stands
    · rename_i parsed isParsed
      dsimp only at stands
      split at stands
      · cases stands
      · rename_i target isTarget
        obtain ⟨found, online⟩ := Option.filter_eq_some_iff.mp isTarget
        split at stands
        · cases stands
        · rename_i serviceID resolved
          cases stands
          exact ⟨parsed, target, isParsed, rfl, found, online, resolved, rfl⟩
  · rintro ⟨parsed, target, isParsed, isTarget, found, online, resolved, isAction⟩
    obtain ⟨targetID, serviceID, action⟩ := hop
    simp only at isTarget found resolved isAction
    subst isTarget isAction
    have there : (map.lookup (setup.deviceIDForName parsed.device)).filter Device.online = some target := by
      rw [found]
      simp [online]
    simp [hopFor, isParsed, there, resolved]

/-- An address stands for the same wherever its target is the same. -/
theorem hopFor_same (stands : hopFor setup map modulePath address = .ok hop)
    (same : other.lookup hop.targetID = map.lookup hop.targetID) :
    hopFor setup other modulePath address = .ok hop := by
  rw [hopFor_ok_iff] at stands ⊢
  rwa [same]

theorem hopFor_more (more : ∀ deviceID device, map.lookup deviceID = some device → other.lookup deviceID = some device)
    (stands : hopFor setup map modulePath address = .ok hop) : hopFor setup other modulePath address = .ok hop := by
  rw [hopFor_ok_iff] at stands ⊢
  obtain ⟨parsed, target, isParsed, isTarget, found, rest⟩ := stands
  exact ⟨parsed, target, isParsed, isTarget, more _ _ found, rest⟩

theorem hopFor_gone (stands : hopFor setup map modulePath address = .ok hop)
    (gone : other.lookup hop.targetID = none) (hop' : Hop) : hopFor setup other modulePath address ≠ .ok hop' := by
  intro still
  rw [hopFor_ok_iff] at stands still
  obtain ⟨parsed, -, isParsed, isTarget, -⟩ := stands
  obtain ⟨parsed', target, isParsed', isTarget', found, -⟩ := still
  rw [isParsed] at isParsed'
  cases isParsed'
  rw [isTarget', ← isTarget, gone] at found
  cases found

theorem hopsFor_ok {addresses : List Address} {hops : List (Address × Hop)}
    (stand : hopsFor setup map modulePath addresses = .ok hops) :
    (∀ address ∈ addresses, ∃ hop, hopFor setup map modulePath address = .ok hop ∧ (address, hop) ∈ hops) ∧
    (∀ entry ∈ hops, entry.1 ∈ addresses ∧ hopFor setup map modulePath entry.1 = .ok entry.2) ∧
    hops.length = addresses.length := by
  induction addresses generalizing hops with
  | nil =>
      cases stand
      simp
  | cons address rest ih =>
      unfold hopsFor at stand
      split at stand
      · cases stand
      · rename_i hop isHop
        split at stand
        · cases stand
        · rename_i more isMore
          cases stand
          obtain ⟨all, only, length⟩ := ih isMore
          refine ⟨?_, ?_, by simp [length]⟩
          · rintro other (_ | ⟨_, member⟩)
            · exact ⟨hop, isHop, List.mem_cons_self ..⟩
            · obtain ⟨found, isFound, there⟩ := all other member
              exact ⟨found, isFound, List.mem_cons_of_mem _ there⟩
          · rintro entry (_ | ⟨_, member⟩)
            · exact ⟨List.mem_cons_self .., isHop⟩
            · exact ⟨List.mem_cons_of_mem _ (only entry member).1, (only entry member).2⟩

theorem hopsFor_all {addresses : List Address}
    (stand : ∀ address ∈ addresses, ∃ hop, hopFor setup map modulePath address = .ok hop) :
    ∃ hops, hopsFor setup map modulePath addresses = .ok hops := by
  induction addresses with
  | nil => exact ⟨[], rfl⟩
  | cons address rest ih =>
      obtain ⟨hop, isHop⟩ := stand address (List.mem_cons_self ..)
      obtain ⟨hops, areHops⟩ := ih fun other member => stand other (List.mem_cons_of_mem _ member)
      exact ⟨(address, hop) :: hops, by simp [hopsFor, isHop, areHops]⟩

theorem hopsAtOnce_ok {name key : String} {addresses : List Address} {allowed result : List String}
    (ends : hopsAtOnce setup map modulePath name key addresses allowed = .ok result) :
    ∀ address ∈ addresses, ∃ hop, hopFor setup map modulePath address = .ok hop ∧
      setup.authenticate key hop = .ok true := by
  induction addresses generalizing allowed with
  | nil => simp
  | cons address rest ih =>
      unfold hopsAtOnce at ends
      split at ends
      · cases ends
      · rename_i hop isHop
        split at ends
        · cases ends
        · cases ends
        · rename_i granted
          rintro other (_ | ⟨_, member⟩)
          · exact ⟨hop, isHop, granted⟩
          · exact ih ends other member

theorem hopsAtOnce_all (name : String) {key : String} {addresses : List Address} (allowed : List String)
    (granted : ∀ address ∈ addresses, ∃ hop, hopFor setup map modulePath address = .ok hop ∧
      setup.authenticate key hop = .ok true) :
    ∃ result, hopsAtOnce setup map modulePath name key addresses allowed = .ok result := by
  induction addresses generalizing allowed with
  | nil => exact ⟨allowed, rfl⟩
  | cons address rest ih =>
      obtain ⟨hop, isHop, isGranted⟩ := granted address (List.mem_cons_self ..)
      obtain ⟨result, isResult⟩ := ih (allow allowed address) fun other member =>
        granted other (List.mem_cons_of_mem _ member)
      exact ⟨result, by simp [hopsAtOnce, isHop, isGranted, isResult]⟩

/-- Fewer devices let less verify. -/
theorem Verifies.more {device : Device}
    (more : ∀ deviceID device, map.lookup deviceID = some device → other.lookup deviceID = some device)
    (verifies : Verifies setup map device) : Verifies setup other device := by
  rcases verifies with none | ⟨name, key, isName, composes, isKey, hops⟩
  · exact Or.inl none
  · refine Or.inr ⟨name, key, isName, composes, isKey, fun address member => ?_⟩
    obtain ⟨hop, stands, granted⟩ := hops address member
    exact ⟨hop, hopFor_more more stands, granted⟩

end Hops

/-! What holds of every pass. -/
section Passes

variable {setup : Setup} {deviceMap : Table Device} {s : State}

/-- What a device's stage says about the loaded devices. -/
def StageHolds (setup : Setup) (deviceMap : Table Device) (deviceID : String) : Stage → Prop
  | .unstarted | .failed => True
  | .identity device name =>
      deviceMap.lookup deviceID = some device ∧ device.declared ≠ [] ∧ device.friendlyName = some name ∧
        setup.composes = true
  | .hops device name key waiting _ =>
      deviceMap.lookup deviceID = some device ∧ device.declared ≠ [] ∧ device.friendlyName = some name ∧
        setup.composes = true ∧ setup.identityForModule name = .ok ⟨some key, none⟩ ∧ waiting ≠ [] ∧
        waiting.length ≤ device.declared.length ∧
        (∀ address ∈ device.declared, ∃ hop, hopFor setup deviceMap device.modulePath address = .ok hop ∧
          ((address, hop) ∈ waiting ∨ setup.authenticate key hop = .ok true)) ∧
        ∀ entry ∈ waiting, entry.1 ∈ device.declared ∧
          hopFor setup deviceMap device.modulePath entry.1 = .ok entry.2
  | .passed => ∃ device, deviceMap.lookup deviceID = some device ∧ Verifies setup deviceMap device

structure Tracked (setup : Setup) (deviceMap : Table Device) (s : State) : Prop where
  fewer : ∀ deviceID device, s.deviceMap.lookup deviceID = some device → deviceMap.lookup deviceID = some device
  kept : ∀ deviceID, s.stage deviceID ≠ .failed → s.deviceMap.lookup deviceID = deviceMap.lookup deviceID
  gone : ∀ deviceID, s.stage deviceID = .failed → s.deviceMap.lookup deviceID = none
  stages : ∀ deviceID, StageHolds setup deviceMap deviceID (s.stage deviceID)
  bound : ∀ entry ∈ s.bound, s.stage entry.1 = .passed

theorem start_tracked : Tracked setup deviceMap (start deviceMap) where
  fewer := fun _ _ found => found
  kept := fun _ _ => rfl
  gone := by simp [start]
  stages := fun _ => trivial
  bound := by simp [start]

variable {deviceID : String}

theorem Tracked.to (tracked : Tracked setup deviceMap s) (running : s.stage deviceID ≠ .failed)
    (unbound : s.stage deviceID ≠ .passed) {stage : Stage} (notFailed : stage ≠ .failed)
    (holds : StageHolds setup deviceMap deviceID stage) : Tracked setup deviceMap (s.to deviceID stage) where
  fewer := tracked.fewer
  kept := by
    intro other stays
    by_cases same : other = deviceID
    · exact same ▸ tracked.kept deviceID running
    · exact tracked.kept other (by simpa [State.to, same] using stays)
  gone := by
    intro other failed
    by_cases same : other = deviceID
    · subst same
      exact absurd (by simpa [State.to] using failed) notFailed
    · exact tracked.gone other (by simpa [State.to, same] using failed)
  stages := by
    intro other
    by_cases same : other = deviceID
    · subst same
      simpa [State.to] using holds
    · simpa [State.to, same] using tracked.stages other
  bound := by
    intro entry member
    have passed := tracked.bound entry member
    by_cases same : entry.1 = deviceID
    · exact absurd (same ▸ passed) unbound
    · simpa [State.to, same] using passed

theorem Tracked.fail (tracked : Tracked setup deviceMap s) (unbound : s.stage deviceID ≠ .passed) (error : Refusal) :
    Tracked setup deviceMap (s.fail deviceID error) where
  fewer := by
    intro other device found
    simp only [State.fail, lookup_deleteKey] at found
    split at found
    · cases found
    · exact tracked.fewer other device found
  kept := by
    intro other stays
    by_cases same : other = deviceID
    · subst same
      simp [State.fail, State.to] at stays
    · simp only [State.fail, lookup_deleteKey, if_neg same]
      exact tracked.kept other (by simpa [State.fail, State.to, same] using stays)
  gone := by
    intro other failed
    simp only [State.fail, lookup_deleteKey]
    split
    · rfl
    · rename_i differs
      exact tracked.gone other (by simpa [State.fail, State.to, differs] using failed)
  stages := by
    intro other
    by_cases same : other = deviceID
    · subst same
      simp [State.fail, State.to, StageHolds]
    · simpa [State.fail, State.to, same] using tracked.stages other
  bound := by
    intro entry member
    have passed := tracked.bound entry member
    by_cases same : entry.1 = deviceID
    · exact absurd (same ▸ passed) unbound
    · simpa [State.fail, State.to, same] using passed

theorem Tracked.pass (tracked : Tracked setup deviceMap s) (running : s.stage deviceID ≠ .failed)
    (unbound : s.stage deviceID ≠ .passed) (composition : Option Composition)
    (holds : StageHolds setup deviceMap deviceID .passed) :
    Tracked setup deviceMap (s.pass deviceID composition) :=
  { tracked.to running unbound (by simp) holds with
    bound := by
      intro entry member
      rcases List.mem_append.mp member with old | isNew
      · exact (tracked.to running unbound (by simp) holds).bound entry old
      · cases composition with
        | none => cases isNew
        | some composition =>
            cases List.mem_singleton.mp isNew
            simp [State.pass, State.to] }

/-- What an event makes of a pass: nothing, or its device waits, fails or passes. A device fails for what it declares
among the devices that are left. -/
inductive Outcome (setup : Setup) (deviceMap : Table Device) (s : State) (deviceID : String) : State → Prop
  | still : Outcome setup deviceMap s deviceID s
  | waits {stage : Stage} (running : s.stage deviceID ≠ .failed) (unbound : s.stage deviceID ≠ .passed)
      (notFailed : stage ≠ .failed) (holds : StageHolds setup deviceMap deviceID stage) :
      Outcome setup deviceMap s deviceID (s.to deviceID stage)
  | fails {device : Device} (error : Refusal) (running : s.stage deviceID ≠ .failed)
      (unbound : s.stage deviceID ≠ .passed) (found : deviceMap.lookup deviceID = some device)
      (cause : ¬ Verifies setup s.deviceMap device) :
      Outcome setup deviceMap s deviceID (s.fail deviceID error)
  | passes (composition : Option Composition) (running : s.stage deviceID ≠ .failed)
      (unbound : s.stage deviceID ≠ .passed) (holds : StageHolds setup deviceMap deviceID .passed) :
      Outcome setup deviceMap s deviceID (s.pass deviceID composition)

theorem verify_outcome {device : Device} (unstarted : s.stage deviceID = .unstarted)
    (found : deviceMap.lookup deviceID = some device) :
    Outcome setup deviceMap s deviceID (s.verify setup deviceID device) := by
  have running : s.stage deviceID ≠ .failed := by simp [unstarted]
  have unbound : s.stage deviceID ≠ .passed := by simp [unstarted]
  unfold State.verify
  split
  · rename_i nothing
    exact .passes none running unbound ⟨device, found, Or.inl nothing⟩
  · rename_i declares
    split
    · rename_i noName
      refine .fails _ running unbound found ?_
      rintro (nothing | ⟨name, key, isName, -⟩)
      · exact declares nothing
      · simp [noName] at isName
    · rename_i name isName
      split
      · rename_i plain
        refine .fails _ running unbound found ?_
        rintro (nothing | ⟨name', key, -, composes, -⟩)
        · exact declares nothing
        · simp [composes] at plain
      · rename_i composes
        exact .waits running unbound (by simp) ⟨found, declares, isName, by simpa using composes⟩

/-- A device with declared calls and this name verifies with the one identity that claims it, or not at all. -/
theorem verifies_claimed {map : Table Device} {device : Device} {name : String} (declares : device.declared ≠ [])
    (isName : device.friendlyName = some name) (verifies : Verifies setup map device) :
    ∃ key, setup.identityForModule name = .ok ⟨some key, none⟩ ∧ ∀ address ∈ device.declared,
      ∃ hop, hopFor setup map device.modulePath address = .ok hop ∧ setup.authenticate key hop = .ok true := by
  rcases verifies with nothing | ⟨name', key, isName', -, isKey, hops⟩
  · exact absurd nothing declares
  · rw [isName] at isName'
    cases isName'
    exact ⟨key, isKey, hops⟩

theorem identified_outcome (tracked : Tracked setup deviceMap s) {device : Device} {name : String} (atOnce : Bool)
    (asked : s.stage deviceID = .identity device name) :
    Outcome setup deviceMap s deviceID (s.identified setup deviceID device name atOnce) := by
  have running : s.stage deviceID ≠ .failed := by simp [asked]
  have unbound : s.stage deviceID ≠ .passed := by simp [asked]
  obtain ⟨found, declares, isName, composes⟩ : StageHolds setup deviceMap deviceID (.identity device name) :=
    asked ▸ tracked.stages deviceID
  unfold State.identified
  split
  · rename_i error isError
    refine .fails _ running unbound found fun verifies => ?_
    obtain ⟨key, isKey, -⟩ := verifies_claimed declares isName verifies
    simp [isError] at isKey
  · rename_i other conflicts isClaimed
    refine .fails _ running unbound found fun verifies => ?_
    obtain ⟨key, isKey, -⟩ := verifies_claimed declares isName verifies
    simp [isClaimed] at isKey
  · rename_i isUnclaimed
    refine .fails _ running unbound found fun verifies => ?_
    obtain ⟨key, isKey, -⟩ := verifies_claimed declares isName verifies
    simp [isUnclaimed] at isKey
  · rename_i key isKey
    split
    · split
      · rename_i error refused
        refine .fails _ running unbound found fun verifies => ?_
        obtain ⟨key', isKey', hops⟩ := verifies_claimed declares isName verifies
        rw [isKey] at isKey'
        cases isKey'
        obtain ⟨result, isResult⟩ := hopsAtOnce_all name [] hops
        rw [refused] at isResult
        cases isResult
      · rename_i allowed granted
        refine .passes _ running unbound ⟨device, found, Verifies.more tracked.fewer ?_⟩
        exact Or.inr ⟨name, key, isName, composes, isKey, hopsAtOnce_ok granted⟩
    · split
      · rename_i reason refused
        refine .fails _ running unbound found fun verifies => ?_
        obtain ⟨key', -, hops⟩ := verifies_claimed declares isName verifies
        obtain ⟨waiting, isWaiting⟩ := hopsFor_all fun address member =>
          let ⟨hop, stands, _⟩ := hops address member
          ⟨hop, stands⟩
        rw [refused] at isWaiting
        cases isWaiting
      · rename_i waiting isWaiting
        obtain ⟨all, only, length⟩ := hopsFor_ok isWaiting
        refine .waits running unbound (by simp) ⟨found, declares, isName, composes, isKey, ?_, length.le, ?_, ?_⟩
        · intro none
          rw [none] at length
          exact declares (List.length_eq_zero_iff.mp length.symm)
        · intro address member
          obtain ⟨hop, stands, waits⟩ := all address member
          exact ⟨hop, hopFor_more tracked.fewer stands, Or.inl waits⟩
        · intro entry member
          exact ⟨(only entry member).1, hopFor_more tracked.fewer (only entry member).2⟩

/-- What waits beside one entry waits after its answer. -/
theorem mem_eraseIdx_or {α : Type} {waiting : List α} {place : Nat} {answered entry : α}
    (isAnswered : waiting[place]? = some answered) (member : entry ∈ waiting) :
    entry ∈ waiting.eraseIdx place ∨ entry = answered := by
  rw [List.mem_eraseIdx_iff_getElem?]
  obtain ⟨other, isEntry⟩ := List.mem_iff_getElem?.mp member
  by_cases same : other = place
  · subst same
    rw [isAnswered] at isEntry
    exact Or.inr (Option.some.inj isEntry).symm
  · exact Or.inl ⟨other, same, isEntry⟩

theorem authenticated_outcome (tracked : Tracked setup deviceMap s) {device : Device} {name key : String}
    {waiting : List (Address × Hop)} {allowed : List String} (place : Nat)
    (asked : s.stage deviceID = .hops device name key waiting allowed) :
    Outcome setup deviceMap s deviceID (s.authenticated setup deviceID device name key waiting allowed place) := by
  have running : s.stage deviceID ≠ .failed := by simp [asked]
  have unbound : s.stage deviceID ≠ .passed := by simp [asked]
  obtain ⟨found, declares, isName, composes, isKey, some, fits, all, only⟩ :
      StageHolds setup deviceMap deviceID (.hops device name key waiting allowed) := asked ▸ tracked.stages deviceID
  unfold State.authenticated
  split
  · exact .still
  · rename_i address hop answered
    obtain ⟨declared, stands⟩ := only _ (List.mem_of_getElem? answered)
    -- an answer that grants nothing tells against the device whatever is left of its targets
    have refused (notGranted : setup.authenticate key hop ≠ .ok true) : ¬ Verifies setup s.deviceMap device := by
      intro verifies
      obtain ⟨key', isKey', hops⟩ := verifies_claimed declares isName (verifies.more tracked.fewer)
      rw [isKey] at isKey'
      cases isKey'
      obtain ⟨hop', stands', granted⟩ := hops _ declared
      rw [stands] at stands'
      cases stands'
      exact notGranted granted
    split
    · rename_i isError
      exact .fails _ running unbound found (refused (by simp [isError]))
    · rename_i isRefused
      exact .fails _ running unbound found (refused (by simp [isRefused]))
    · rename_i granted
      have left : ∀ other ∈ device.declared, ∃ hop', hopFor setup deviceMap device.modulePath other = .ok hop' ∧
          ((other, hop') ∈ waiting.eraseIdx place ∨ setup.authenticate key hop' = .ok true) := by
        intro other member
        obtain ⟨hop', stands', waits | isGranted⟩ := all other member
        · rcases mem_eraseIdx_or answered waits with still | same
          · exact ⟨hop', stands', Or.inl still⟩
          · cases same
            exact ⟨_, stands', Or.inr granted⟩
        · exact ⟨hop', stands', Or.inr isGranted⟩
      split
      · rename_i none
        refine .passes _ running unbound ⟨device, found, Or.inr ⟨name, key, isName, composes, isKey, ?_⟩⟩
        intro other member
        obtain ⟨hop', stands', waits | isGranted⟩ := left other member
        · simp [none] at waits
        · exact ⟨hop', stands', isGranted⟩
      · rename_i more
        refine .waits running unbound (by simp)
          ⟨found, declares, isName, composes, isKey, more, ?_, left, fun entry member => ?_⟩
        · exact (List.length_eraseIdx_le ..).trans fits
        · exact only entry (List.mem_of_mem_eraseIdx member)

theorem step_outcome (tracked : Tracked setup deviceMap s) (e : Event) :
    Outcome setup deviceMap s e.deviceID (s.step setup e) := by
  cases e with
  | verify deviceID =>
      simp only [State.step, Event.deviceID]
      split
      · rename_i device unstarted found
        exact verify_outcome unstarted (tracked.fewer _ _ found)
      · exact .still
  | identity deviceID atOnce =>
      simp only [State.step, Event.deviceID]
      split
      · rename_i asked
        exact identified_outcome tracked atOnce asked
      · exact .still
  | authenticated deviceID place =>
      simp only [State.step, Event.deviceID]
      split
      · rename_i asked
        exact authenticated_outcome tracked place asked
      · exact .still

theorem Tracked.step (tracked : Tracked setup deviceMap s) (e : Event) :
    Tracked setup deviceMap (s.step setup e) := by
  have outcome := step_outcome tracked e
  generalize s.step setup e = after at outcome
  cases outcome with
  | still => exact tracked
  | waits running unbound notFailed holds => exact tracked.to running unbound notFailed holds
  | fails error _ unbound => exact tracked.fail unbound error
  | passes composition running unbound holds => exact tracked.pass running unbound composition holds

theorem Tracked.run (tracked : Tracked setup deviceMap s) (events : List Event) :
    Tracked setup deviceMap (s.run setup events) := by
  induction events generalizing s with
  | nil => exact tracked
  | cons e rest ih => exact ih (tracked.step e)

end Passes

/-! With targets that verify, a device fails exactly for its own declarations. -/
section OwnFault

variable {setup : Setup} {deviceMap : Table Device} {s : State} {deviceID : String} {device : Device}

/-- Who has failed has no one else to blame. -/
def OwnFault (setup : Setup) (deviceMap : Table Device) (s : State) : Prop :=
  ∀ deviceID device, deviceMap.lookup deviceID = some device → s.stage deviceID = .failed →
    ¬ Verifies setup deviceMap device

/-- The targets of a device that verifies are all left. -/
theorem targets_left (tracked : Tracked setup deviceMap s) (own : OwnFault setup deviceMap s)
    (targets : TargetsVerify setup deviceMap) (found : deviceMap.lookup deviceID = some device)
    (verifies : Verifies setup deviceMap device) {address : Address} (declared : address ∈ device.declared) {hop : Hop}
    (stands : hopFor setup deviceMap device.modulePath address = .ok hop) :
    hopFor setup s.deviceMap device.modulePath address = .ok hop := by
  obtain ⟨-, target, -, -, isTarget, -⟩ := hopFor_ok_iff.mp stands
  have good := targets deviceID device found verifies address declared hop stands target isTarget
  exact hopFor_same stands (tracked.kept _ fun failed => own _ target isTarget failed good)

theorem verifies_left (tracked : Tracked setup deviceMap s) (own : OwnFault setup deviceMap s)
    (targets : TargetsVerify setup deviceMap) (found : deviceMap.lookup deviceID = some device)
    (verifies : Verifies setup deviceMap device) : Verifies setup s.deviceMap device := by
  rcases verifies with nothing | ⟨name, key, isName, composes, isKey, hops⟩
  · exact Or.inl nothing
  · refine Or.inr ⟨name, key, isName, composes, isKey, fun address declared => ?_⟩
    obtain ⟨hop, stands, granted⟩ := hops address declared
    have verifies : Verifies setup deviceMap device := Or.inr ⟨name, key, isName, composes, isKey, hops⟩
    exact ⟨hop, targets_left tracked own targets found verifies declared stands, granted⟩

theorem OwnFault.step (tracked : Tracked setup deviceMap s) (own : OwnFault setup deviceMap s)
    (targets : TargetsVerify setup deviceMap) (e : Event) : OwnFault setup deviceMap (s.step setup e) := by
  have outcome := step_outcome tracked e
  generalize s.step setup e = after at outcome
  intro other loaded isLoaded failed
  cases outcome with
  | still => exact own other loaded isLoaded failed
  | waits running unbound notFailed holds =>
      by_cases same : other = e.deviceID
      · subst same
        exact absurd (by simpa [State.to] using failed) notFailed
      · exact own other loaded isLoaded (by simpa [State.to, same] using failed)
  | fails error running unbound found cause =>
      by_cases same : other = e.deviceID
      · subst same
        rw [found] at isLoaded
        cases isLoaded
        exact fun verifies => cause (verifies_left tracked own targets found verifies)
      · exact own other loaded isLoaded (by simpa [State.fail, State.to, same] using failed)
  | passes composition running unbound holds =>
      by_cases same : other = e.deviceID
      · subst same
        simp [State.pass, State.to] at failed
      · exact own other loaded isLoaded (by simpa [State.pass, State.to, same] using failed)

theorem OwnFault.run (tracked : Tracked setup deviceMap s) (own : OwnFault setup deviceMap s)
    (targets : TargetsVerify setup deviceMap) (events : List Event) :
    OwnFault setup deviceMap (s.run setup events) := by
  induction events generalizing s with
  | nil => exact own
  | cons e rest ih => exact ih (tracked.step e) (own.step tracked targets e)

theorem start_ownFault : OwnFault setup deviceMap (start deviceMap) := by
  intro deviceID device _ failed
  cases failed

theorem sound_of_targets (tracked : Tracked setup deviceMap s) (own : OwnFault setup deviceMap s)
    (targets : TargetsVerify setup deviceMap) : Sound setup deviceMap s := by
  intro entry member device found address declared
  have passed : StageHolds setup deviceMap entry.1 .passed := tracked.bound entry member ▸ tracked.stages entry.1
  obtain ⟨bound, isBound, verifies⟩ := passed
  rw [found] at isBound
  cases isBound
  rcases verifies_left tracked own targets found verifies with nothing | ⟨_, _, _, _, _, hops⟩
  · simp [nothing] at declared
  · obtain ⟨hop, stands, -⟩ := hops address declared
    exact ⟨hop, stands⟩

/-- Those that verify are left in the end, and no others. -/
theorem left_iff (tracked : Tracked setup deviceMap s) (own : OwnFault setup deviceMap s)
    (finished : Finished deviceMap s) :
    s.deviceMap.lookup deviceID = some device ↔
      deviceMap.lookup deviceID = some device ∧ Verifies setup deviceMap device := by
  constructor
  · intro left
    have found := tracked.fewer deviceID device left
    rcases finished deviceID device found with passed | failed
    · have holds : StageHolds setup deviceMap deviceID .passed := passed ▸ tracked.stages deviceID
      obtain ⟨same, isSame, verifies⟩ := holds
      rw [found] at isSame
      cases isSame
      exact ⟨found, verifies⟩
    · rw [tracked.gone deviceID failed] at left
      cases left
  · rintro ⟨found, verifies⟩
    rw [tracked.kept deviceID fun failed => own deviceID device found failed verifies]
    exact found

theorem orderFree_of_targets (targets : TargetsVerify setup deviceMap) : OrderFree setup deviceMap := by
  intro first second finished finished' deviceID
  have tracked := fun events => (@start_tracked setup deviceMap).run events
  have own := fun events => start_ownFault.run start_tracked targets events
  refine Option.ext fun device => ?_
  rw [left_iff (tracked first) (own first) finished, left_iff (tracked second) (own second) finished']

end OwnFault

/-! A device that comes before its target is bound to it all the same. -/
section Early

variable {setup : Setup} {deviceMap : Table Device} {s : State} {deviceID other : String} {device : Device}

theorem step_other (tracked : Tracked setup deviceMap s) {e : Event} (differs : other ≠ e.deviceID) :
    (s.step setup e).stage other = s.stage other := by
  have outcome := step_outcome tracked e
  generalize s.step setup e = after at outcome
  cases outcome with
  | still => rfl
  | waits => simp [State.to, differs]
  | fails => simp [State.fail, State.to, differs]
  | passes => simp [State.pass, State.to, differs]

/-- A verdict is the last word on a device. -/
theorem step_final (tracked : Tracked setup deviceMap s) (e : Event)
    (final : s.stage other = .passed ∨ s.stage other = .failed) : (s.step setup e).stage other = s.stage other := by
  by_cases same : other = e.deviceID
  · subst same
    have outcome := step_outcome tracked e
    generalize s.step setup e = after at outcome
    cases outcome with
    | still => rfl
    | waits running unbound | fails _ running unbound | passes _ running unbound =>
        rcases final with passed | failed
        · exact absurd passed unbound
        · exact absurd failed running
  · exact step_other tracked same

theorem step_bound (tracked : Tracked setup deviceMap s) (e : Event) {entry : String × Composition}
    (member : entry ∈ s.bound) : entry ∈ (s.step setup e).bound := by
  have outcome := step_outcome tracked e
  generalize s.step setup e = after at outcome
  cases outcome with
  | still | waits | fails => exact member
  | passes => exact List.mem_append_left _ member

theorem run_final (tracked : Tracked setup deviceMap s) (events : List Event)
    (final : s.stage other = .passed ∨ s.stage other = .failed) : (s.run setup events).stage other = s.stage other := by
  induction events generalizing s with
  | nil => rfl
  | cons e rest ih =>
      have kept := step_final tracked e final
      exact (ih (tracked.step e) (kept ▸ final)).trans kept

theorem run_bound (tracked : Tracked setup deviceMap s) (events : List Event) {entry : String × Composition}
    (member : entry ∈ s.bound) : entry ∈ (s.run setup events).bound := by
  induction events generalizing s with
  | nil => exact member
  | cons e rest ih => exact ih (tracked.step e) (step_bound tracked e member)

/-- A device is checked with every request answered at once. -/
def check (deviceID : String) : List Event := [.verify deviceID, .identity deviceID true]

theorem verify_stage :
    ((s.verify setup deviceID device).stage deviceID = .passed ∨
      (s.verify setup deviceID device).stage deviceID = .failed) ∨
    ∃ name, (s.verify setup deviceID device).stage deviceID = .identity device name := by
  unfold State.verify
  split
  · simp [State.pass, State.to]
  · split
    · simp [State.fail, State.to]
    · split
      · simp [State.fail, State.to]
      · simp [State.to]

theorem identified_stage {name : String} :
    (s.identified setup deviceID device name true).stage deviceID = .passed ∨
      (s.identified setup deviceID device name true).stage deviceID = .failed := by
  unfold State.identified
  split
  · simp [State.fail, State.to]
  · simp [State.fail, State.to]
  · simp [State.fail, State.to]
  · simp only [if_true]
    split
    · simp [State.fail, State.to]
    · simp [State.pass, State.to]

theorem check_final (tracked : Tracked setup deviceMap s) (found : deviceMap.lookup deviceID = some device)
    (rests : s.stage deviceID = .unstarted ∨ s.stage deviceID = .passed ∨ s.stage deviceID = .failed) :
    (s.run setup (check deviceID)).stage deviceID = .passed ∨
      (s.run setup (check deviceID)).stage deviceID = .failed := by
  rcases rests with unstarted | final
  · have there : s.deviceMap.lookup deviceID = some device :=
      (tracked.kept deviceID (by simp [unstarted])).trans found
    have verified : s.step setup (.verify deviceID) = s.verify setup deviceID device := by
      simp [State.step, unstarted, there]
    rcases @verify_stage setup s deviceID device with final | ⟨name, asked⟩
    · rw [← verified] at final
      have kept := step_final (tracked.step (.verify deviceID)) (.identity deviceID true) final
      simp only [check, State.run, List.foldl_cons, List.foldl_nil]
      rw [kept]
      exact final
    · have answered : (s.step setup (.verify deviceID)).step setup (.identity deviceID true) =
          (s.step setup (.verify deviceID)).identified setup deviceID device name true := by
        rw [verified]
        simp [State.step, asked]
      simp only [check, State.run, List.foldl_cons, List.foldl_nil]
      rw [answered]
      exact identified_stage
  · rw [run_final tracked _ final]
    exact final

/-- The check of one device leaves no other half done. -/
theorem check_rests (tracked : Tracked setup deviceMap s)
    (rests : ∀ other, s.stage other = .unstarted ∨ s.stage other = .passed ∨ s.stage other = .failed)
    (found : deviceMap.lookup deviceID = some device) :
    (s.run setup (check deviceID)).stage other = .unstarted ∨ (s.run setup (check deviceID)).stage other = .passed ∨
      (s.run setup (check deviceID)).stage other = .failed := by
  by_cases same : other = deviceID
  · subst same
    exact Or.inr (check_final tracked found (rests other))
  · have untouched : (s.run setup (check deviceID)).stage other = s.stage other := by
      simp only [check, State.run, List.foldl_cons, List.foldl_nil]
      rw [step_other (tracked.step _) same, step_other tracked same]
    rw [untouched]
    exact rests other

theorem mem_loaded (member : deviceID ∈ deviceMap.map Prod.fst) : ∃ device, deviceMap.lookup deviceID = some device := by
  obtain ⟨entry, isEntry, rfl⟩ := List.mem_map.mp member
  refine Option.ne_none_iff_exists'.mp fun missing => ?_
  have differs := List.lookup_eq_none_iff.mp missing entry isEntry
  simp at differs

theorem checks_final {ids : List String} (tracked : Tracked setup deviceMap s)
    (loaded : ∀ deviceID ∈ ids, ∃ device, deviceMap.lookup deviceID = some device)
    (rests : ∀ other, s.stage other = .unstarted ∨ s.stage other = .passed ∨ s.stage other = .failed) :
    ∀ deviceID ∈ ids, (s.run setup (ids.flatMap check)).stage deviceID = .passed ∨
      (s.run setup (ids.flatMap check)).stage deviceID = .failed := by
  induction ids generalizing s with
  | nil => simp
  | cons first ids ih =>
      obtain ⟨device, found⟩ := loaded first (List.mem_cons_self ..)
      have final := check_final tracked found (rests first)
      simp only [List.flatMap_cons, State.run, List.foldl_append]
      rintro other (_ | ⟨_, member⟩)
      · have kept := run_final (tracked.run (check first)) (ids.flatMap check) final
        simp only [State.run] at kept
        rw [kept]
        exact final
      · exact ih (tracked.run (check first)) (fun other member => loaded other (List.mem_cons_of_mem _ member))
          (fun _ => check_rests tracked rests found) other member

theorem start_verified (found : deviceMap.lookup deviceID = some device) (verifies : Verifies setup deviceMap device)
    (declares : device.declared ≠ []) :
    ∃ composition, (deviceID, composition) ∈ ((start deviceMap).run setup (check deviceID)).bound := by
  rcases verifies with nothing | ⟨name, key, isName, composes, isKey, hops⟩
  · exact absurd nothing declares
  · obtain ⟨allowed, granted⟩ := hopsAtOnce_all name [] hops
    refine ⟨⟨key, allowed⟩, ?_⟩
    have asked : (start deviceMap).step setup (.verify deviceID) = (start deviceMap).to deviceID (.identity device name) := by
      simp [State.step, start, found, State.verify, declares, isName, composes]
    have answered : ((start deviceMap).to deviceID (.identity device name)).step setup (.identity deviceID true) =
        ((start deviceMap).to deviceID (.identity device name)).pass deviceID (some ⟨key, allowed⟩) := by
      have granted : hopsAtOnce setup (start deviceMap).deviceMap device.modulePath name key device.declared [] =
          .ok allowed := granted
      simp [State.step, State.to, State.identified, isKey, granted]
    simp only [check, State.run, List.foldl_cons, List.foldl_nil]
    rw [asked, answered]
    simp [State.pass]

theorem targets_of_sound
    (sound : ∀ events, Finished deviceMap ((start deviceMap).run setup events) →
      Sound setup deviceMap ((start deviceMap).run setup events)) : TargetsVerify setup deviceMap := by
  intro deviceID device found verifies address declared hop stands target isTarget
  by_contra bad
  -- the device goes first, then all the others
  let rest := (deviceMap.map Prod.fst).flatMap check
  have tracked := (@start_tracked setup deviceMap).run (check deviceID)
  have finished : Finished deviceMap ((start deviceMap).run setup (check deviceID ++ rest)) := by
    intro other loaded isLoaded
    simp only [State.run, List.foldl_append]
    exact checks_final tracked (fun _ => mem_loaded) (fun _ => check_rests start_tracked (fun _ => Or.inl rfl) found)
      other (List.mem_map.mpr ⟨_, lookup_mem isLoaded, rfl⟩)
  obtain ⟨composition, bound⟩ := start_verified found verifies (List.ne_nil_of_mem declared)
  have isBound : (deviceID, composition) ∈ ((start deviceMap).run setup (check deviceID ++ rest)).bound := by
    simp only [State.run, List.foldl_append]
    exact run_bound tracked rest bound
  obtain ⟨hop', still⟩ := sound _ finished _ isBound device found address declared
  have ended := (@start_tracked setup deviceMap).run (check deviceID ++ rest)
  rcases finished hop.targetID target isTarget with passed | failed
  · obtain ⟨same, isSame, good⟩ : StageHolds setup deviceMap hop.targetID .passed := passed ▸ ended.stages hop.targetID
    rw [isTarget] at isSame
    cases isSame
    exact bad good
  · exact hopFor_gone stands (ended.gone _ failed) hop' still

end Early

/-- The check is sound in every order, with the same devices left, exactly when no device that verifies among the loaded
ones has a target that does not. -/
theorem composition_iff (setup : Setup) (deviceMap : Table Device) :
    ((∀ events, Finished deviceMap ((start deviceMap).run setup events) →
      Sound setup deviceMap ((start deviceMap).run setup events)) ∧ OrderFree setup deviceMap) ↔
    TargetsVerify setup deviceMap := by
  constructor
  · rintro ⟨sound, -⟩
    exact targets_of_sound sound
  · intro targets
    refine ⟨fun events _ => ?_, orderFree_of_targets targets⟩
    have tracked := (@start_tracked setup deviceMap).run events
    exact sound_of_targets tracked (start_ownFault.run start_tracked targets events) targets

/-! A chain of which the last link is missing. -/
section Chain

def chainSetup : Setup where
  composes := true
  identityForModule := fun _ => .ok ⟨some "key", none⟩
  authenticate := fun _ _ => .ok true
  authProvider := "file"
  authConfigPath := "auth.json"
  deviceIDForName := id

def linked (name target : String) : Device where
  spec := some ⟨some name, some [⟨"urn:example-com:service:work", some [⟨"run", none, none⟩]⟩]⟩
  calls := some [.string (target ++ "/work.run")]
  packageName := some name
  modulePath := "/modules/" ++ name
  online := true

def chain : Table Device := [("front", linked "front" "middle"), ("middle", linked "middle" "back")]

def frontFirst : State := (start chain).run chainSetup (check "front" ++ check "middle")

def middleFirst : State := (start chain).run chainSetup (check "middle" ++ check "front")

/-- Checked first, the front keeps its binding to the middle, which is purged for its own missing target. -/
theorem chain_unsound : Finished chain frontFirst ∧ ¬ Sound chainSetup chain frontFirst ∧
    Finished chain middleFirst ∧ frontFirst.deviceMap.map Prod.fst = ["front"] ∧ middleFirst.deviceMap = [] := by
  have ends : ∀ s : State, s.stage "front" = .passed ∨ s.stage "front" = .failed →
      s.stage "middle" = .passed ∨ s.stage "middle" = .failed → Finished chain s := by
    intro s front middle deviceID device found
    have member := lookup_mem found
    simp only [chain, List.mem_cons, Prod.mk.injEq, List.not_mem_nil, or_false] at member
    rcases member with ⟨rfl, -⟩ | ⟨rfl, -⟩
    · exact front
    · exact middle
  refine ⟨ends _ (Or.inl rfl) (Or.inr rfl), fun sound => ?_, ends _ (Or.inr rfl) (Or.inr rfl), by rfl, by rfl⟩
  obtain ⟨hop, stands⟩ := sound ("front", ⟨"key", ["middle/work.run"]⟩) (List.mem_singleton.mpr rfl) (linked "front" "middle")
    rfl (.string "middle/work.run") (List.mem_singleton.mpr rfl)
  have missing : ∀ hop, hopFor chainSetup frontFirst.deviceMap "/modules/front" (.string "middle/work.run") ≠ .ok hop := by
    intro hop isHop
    cases isHop
  exact missing hop stands

end Chain

end Countinghouse.CompositionCheck
