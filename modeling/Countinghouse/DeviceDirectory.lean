import Mathlib
import Countinghouse.OwnedEntries
import Countinghouse.PlainObject

/-!
The devices of the worker threads as the main thread keeps them: lib/device-id-conflict.js, and of
lib/device-manager.js what becomes of a worker's word that a device is online, of its question for
one, and of a purge. Everything is asked and told by messages of module code, so any order of these
can happen, and a reply may carry what `postMessage` does not take: then its handler ends there. A worker
that has ended is purged.
-/

namespace Countinghouse.DeviceDirectory

open PlainObject OwnedEntries

/-! The handlers. -/
section Handlers

/-- The `deviceID` of a message: a text, or a value that is used as one. -/
inductive DeviceID where
  | null
  | undefined
  | name (text : String)

/-- The property that `table[deviceID]` is. -/
def DeviceID.key : DeviceID → String
  | .null => "null"
  | .undefined => "undefined"
  | .name text => text

/-- `deviceID != null` -/
def DeviceID.given : DeviceID → Bool
  | .name _ => true
  | _ => false

structure WorkerMessage (Spec : Type) where
  online : Option Bool := none
  modulePath : Option String := none
  /-- A spec is nothing where the worker sent null or undefined. -/
  deviceList : Table (Option Spec) := []

/-- `{msgID, wm}` -/
structure Query (Wm MsgID : Type) where
  msgID : MsgID
  wm : Wm
  deriving DecidableEq

inductive QueryError where
  | DEVICE_NOT_FOUND (deviceID : String)
  | DEVICE_OFFLINE
  /-- What the supervisor says of a module that is down. -/
  | supervised (message : String)

/-- `sendDeviceQueryReplyToChild` -/
structure Reply (Wm MsgID Spec : Type) where
  query : Query Wm MsgID
  errMsg : Option QueryError
  spec : Option Spec

/-- A call of `verifyComposition` that has not called back. -/
structure Verification (Wm : Type) where
  deviceID : String
  cdifDevice : Wm
  isReVerification : Bool
  deriving DecidableEq

structure DeviceManager (Wm MsgID Spec : Type) where
  workers : Wm → WorkerMessage Spec
  deviceMap : Table Wm := []
  allDevicesLoaded : Bool := false
  notifyDeviceLoad : Table (List (Query Wm MsgID)) := []
  compositionStartupDone : Bool := false
  verifying : List (Verification Wm) := []

/-- What the handlers are given from outside: the options, where each worker's module was loaded from, and which ids
and specs `postMessage` takes, not those that hold a port. -/
structure Setting (Wm MsgID Spec : Type) where
  debug : Bool
  hostModulePath : Wm → String
  clonesID : MsgID → Bool
  clonesSpec : Spec → Bool

variable {Wm MsgID Spec : Type} [DecidableEq Wm]

/-- `conflictingModulePath`; a member of `Object.prototype` has no `modulePath`. -/
def conflictingModulePath (existingEntry : Slot (WorkerMessage Spec)) (incomingModulePath : String) : Option String :=
  match existingEntry with
  | .undefined => none
  | .inherited => some "<unknown>"
  | .own entry =>
      match entry.modulePath with
      | none => some "<unknown>"
      | some path => if path = incomingModulePath then none else some path

/-- `this.deviceMap[deviceID]` -/
def existing (dm : DeviceManager Wm MsgID Spec) (deviceID : String) : Slot (WorkerMessage Spec) :=
  match get dm.deviceMap deviceID with
  | .undefined => .undefined
  | .inherited => .inherited
  | .own wm => .own (dm.workers wm)

variable (setting : Setting Wm MsgID Spec)

/-- What is written of a device that is accepted. -/
def register (dm : DeviceManager Wm MsgID Spec) (wm : Wm) (deviceID : DeviceID) (spec : Option Spec) :
    DeviceManager Wm MsgID Spec :=
  { dm with
    workers := Function.update dm.workers wm
      { online := some true
        modulePath := some (setting.hostModulePath wm)
        deviceList := setKey (dm.workers wm).deviceList deviceID.key spec }
    deviceMap := if deviceID.given then setKey dm.deviceMap deviceID.key wm else dm.deviceMap }

/-- `createRateLimiterForDevice` reads `spec.device` of each device of the worker. -/
def limiterThrows (entry : WorkerMessage Spec) : Bool :=
  !setting.debug && entry.deviceList.any fun device => device.2.isNone

def posts (reply : Reply Wm MsgID Spec) : Bool :=
  setting.clonesID reply.query.msgID && reply.spec.all setting.clonesSpec

/-- Replies are sent in their order, until one is not posted. -/
def sent (replies : List (Reply Wm MsgID Spec)) : List (Reply Wm MsgID Spec) := replies.takeWhile (posts setting)

/-- The queries that wait for a device are told of it. -/
def notifyLoaded (dm : DeviceManager Wm MsgID Spec) (deviceID : String) (spec : Option Spec) :
    DeviceManager Wm MsgID Spec × List (Reply Wm MsgID Spec) :=
  match get dm.notifyDeviceLoad deviceID with
  | .own queries =>
      let replies : List (Reply Wm MsgID Spec) := queries.map fun query => ⟨query, none, spec⟩
      (if replies.all (posts setting) then { dm with notifyDeviceLoad := deleteKey dm.notifyDeviceLoad deviceID } else dm,
        sent setting replies)
  | _ => (dm, [])

def conflicts (dm : DeviceManager Wm MsgID Spec) (wm : Wm) (deviceID : DeviceID) : Bool :=
  deviceID.given && (conflictingModulePath (existing dm deviceID.key) (setting.hostModulePath wm)).isSome

/-- The handler of 'deviceonline'. -/
def onDeviceOnline (dm : DeviceManager Wm MsgID Spec) (wm : Wm) (deviceID : DeviceID) (spec : Option Spec) :
    DeviceManager Wm MsgID Spec × List (Reply Wm MsgID Spec) :=
  if conflicts setting dm wm deviceID then (dm, [])
  -- the handler ends where the limiters are made: nobody is told
  else if limiterThrows setting ((register setting dm wm deviceID spec).workers wm) then
    (register setting dm wm deviceID spec, [])
  else if dm.allDevicesLoaded then (register setting dm wm deviceID spec, [])
  else notifyLoaded setting (register setting dm wm deviceID spec) deviceID.key spec

def missingDeviceError (supervised : Option String) (deviceID : String) : QueryError :=
  match supervised with
  | none => .DEVICE_NOT_FOUND deviceID
  | some message => .supervised message

def ensureDeviceState (dm : DeviceManager Wm MsgID Spec) (supervised : Option String) (deviceID : String) :
    Except QueryError Wm :=
  match get dm.deviceMap deviceID with
  | .own wm => if (dm.workers wm).online = some false then .error .DEVICE_OFFLINE else .ok wm
  | _ => .error (missingDeviceError supervised deviceID)

/-- A member of `Object.prototype` has no `push`: such a query is kept by nobody. -/
def saveQuery (notifyDeviceLoad : Table (List (Query Wm MsgID))) (deviceID : String) (query : Query Wm MsgID) :
    Table (List (Query Wm MsgID)) :=
  match get notifyDeviceLoad deviceID with
  | .own queries => setKey notifyDeviceLoad deviceID (queries ++ [query])
  | .undefined => setKey notifyDeviceLoad deviceID [query]
  | .inherited => notifyDeviceLoad

def queryDeviceForChild (dm : DeviceManager Wm MsgID Spec) (supervised : Option String) (deviceID : String)
    (query : Query Wm MsgID) : DeviceManager Wm MsgID Spec × List (Reply Wm MsgID Spec) :=
  match ensureDeviceState dm supervised deviceID with
  | .ok wm => (dm, sent setting [⟨query, none, ((dm.workers wm).deviceList.lookup deviceID).join⟩])
  | .error err =>
      if dm.allDevicesLoaded then (dm, sent setting [⟨query, some err, none⟩])
      else ({ dm with notifyDeviceLoad := saveQuery dm.notifyDeviceLoad deviceID query }, [])

def onPurgeDevice (dm : DeviceManager Wm MsgID Spec) (wm : Wm) : DeviceManager Wm MsgID Spec :=
  { dm with
    workers := Function.update dm.workers wm
      { dm.workers wm with
        deviceList := (dm.workers wm).deviceList.filter fun device => dm.deviceMap.lookup device.1 ≠ some wm }
    deviceMap := dm.deviceMap.filter fun entry => entry.2 ≠ wm
    notifyDeviceLoad := dm.notifyDeviceLoad.map fun entry => (entry.1, entry.2.filter fun item => item.wm ≠ wm) }

def onModuleDiscovering (dm : DeviceManager Wm MsgID Spec) : DeviceManager Wm MsgID Spec :=
  { dm with allDevicesLoaded := false }

def notFound (entry : String × List (Query Wm MsgID)) : List (Reply Wm MsgID Spec) :=
  entry.2.map fun query => ⟨query, some (.DEVICE_NOT_FOUND entry.1), none⟩

/-- The queries that are left, device after device: which still wait, what is replied, and whether all was posted. -/
def drain : Table (List (Query Wm MsgID)) → Table (List (Query Wm MsgID)) →
    Table (List (Query Wm MsgID)) × List (Reply Wm MsgID Spec) × Bool
  | left, [] => (left, [], true)
  | left, entry :: rest =>
      if (notFound entry : List (Reply Wm MsgID Spec)).all (posts setting) then
        let drained := drain (deleteKey left entry.1) rest
        (drained.1, notFound entry ++ drained.2.1, drained.2.2)
      else (left, sent setting (notFound entry), false)

/-- The queries that are left are for devices that are not there, and each device that is has its composition verified. -/
def onAllModulesDiscovered (dm : DeviceManager Wm MsgID Spec) :
    DeviceManager Wm MsgID Spec × List (Reply Wm MsgID Spec) :=
  let drained := drain setting dm.notifyDeviceLoad (enumerated dm.notifyDeviceLoad)
  let loaded := { dm with allDevicesLoaded := true, notifyDeviceLoad := drained.1 }
  if drained.2.2 then
    ({ loaded with
        compositionStartupDone := true
        verifying := dm.verifying ++ dm.deviceMap.map fun entry => ⟨entry.1, entry.2, dm.compositionStartupDone⟩ },
      drained.2.1)
  else (loaded, drained.2.1)

/-- `verifyComposition` calls back. The first run takes a device that fails off the map, a later one only its
composition. -/
def onVerdict (dm : DeviceManager Wm MsgID Spec) (verification : Verification Wm) (failed : Bool) :
    DeviceManager Wm MsgID Spec :=
  if verification ∉ dm.verifying then dm
  else if failed && !verification.isReVerification then
    { dm with
      verifying := dm.verifying.erase verification
      deviceMap := deleteKey dm.deviceMap verification.deviceID
      workers := Function.update dm.workers verification.cdifDevice
        { dm.workers verification.cdifDevice with
          deviceList := deleteKey (dm.workers verification.cdifDevice).deviceList verification.deviceID } }
  else { dm with verifying := dm.verifying.erase verification }

inductive Event (Wm MsgID Spec : Type) where
  | deviceonline (wm : Wm) (deviceID : DeviceID) (spec : Option Spec)
  | querydevice (supervised : Option String) (deviceID : DeviceID) (query : Query Wm MsgID)
  | purgedevice (wm : Wm)
  | modulediscovering
  | allmodulediscovered
  | verdict (verification : Verification Wm) (failed : Bool)

def step (dm : DeviceManager Wm MsgID Spec) :
    Event Wm MsgID Spec → DeviceManager Wm MsgID Spec × List (Reply Wm MsgID Spec)
  | .deviceonline wm deviceID spec => onDeviceOnline setting dm wm deviceID spec
  | .querydevice supervised deviceID query => queryDeviceForChild setting dm supervised deviceID.key query
  | .purgedevice wm => (onPurgeDevice dm wm, [])
  | .modulediscovering => (onModuleDiscovering dm, [])
  | .allmodulediscovered => onAllModulesDiscovered setting dm
  | .verdict verification failed => (onVerdict dm verification failed, [])

/-- The state after a run of events, and what the workers were replied. -/
def run (dm : DeviceManager Wm MsgID Spec) :
    List (Event Wm MsgID Spec) → DeviceManager Wm MsgID Spec × List (Reply Wm MsgID Spec)
  | [] => (dm, [])
  | event :: rest =>
      ((run (step setting dm event).1 rest).1, (step setting dm event).2 ++ (run (step setting dm event).1 rest).2)

/-- No worker has said anything. -/
def start : DeviceManager Wm MsgID Spec := { workers := fun _ => {} }

end Handlers

/-! What holds in every state. -/
section Soundness

variable {Wm MsgID Spec : Type} [DecidableEq Wm] {setting : Setting Wm MsgID Spec}

structure Sound (setting : Setting Wm MsgID Spec) (dm : DeviceManager Wm MsgID Spec) : Prop where
  mapped : (dm.deviceMap.map Prod.fst).Nodup
  asked : (dm.notifyDeviceLoad.map Prod.fst).Nodup
  own : ∀ key wm, dm.deviceMap.lookup key = some wm → key ∉ inheritedNames
  placed : ∀ key wm, dm.deviceMap.lookup key = some wm →
    (dm.workers wm).modulePath = some (setting.hostModulePath wm)
  listed : ∀ key wm, dm.deviceMap.lookup key = some wm → ∃ spec, (dm.workers wm).deviceList.lookup key = some spec
  online : ∀ wm, (dm.workers wm).online ≠ some false

omit [DecidableEq Wm] in
theorem sound_start : Sound setting (start : DeviceManager Wm MsgID Spec) := by
  constructor <;> simp [start]

theorem register_map_lookup (dm : DeviceManager Wm MsgID Spec) (wm : Wm) (deviceID : DeviceID) (spec : Option Spec)
    (key : String) : (register setting dm wm deviceID spec).deviceMap.lookup key =
      if deviceID.given ∧ key = deviceID.key then some wm else dm.deviceMap.lookup key := by
  simp only [register]
  cases deviceID.given <;> simp [lookup_setKey]

theorem register_list_lookup (dm : DeviceManager Wm MsgID Spec) (wm other : Wm) (deviceID : DeviceID)
    (spec : Option Spec) (key : String) : ((register setting dm wm deviceID spec).workers other).deviceList.lookup key =
      if other = wm ∧ key = deviceID.key then some spec else (dm.workers other).deviceList.lookup key := by
  simp only [register]
  by_cases same : other = wm
  · subst same
    simp [lookup_setKey]
  · simp [same]

omit [DecidableEq Wm] in
/-- A member of `Object.prototype` is a conflict. -/
theorem open_of_fits {dm : DeviceManager Wm MsgID Spec} (sound : Sound setting dm) {wm : Wm} {deviceID : DeviceID}
    (fits : conflicts setting dm wm deviceID = false) (given : deviceID.given = true) :
    deviceID.key ∉ inheritedNames := by
  unfold conflicts existing at fits
  rw [given, Bool.true_and] at fits
  cases found : get dm.deviceMap deviceID.key with
  | own holder => exact sound.own _ _ (own_lookup found)
  | inherited => simp [found, conflictingModulePath] at fits
  | undefined =>
      intro known
      rw [get_inherited (undefined_lookup found) known] at found
      cases found

theorem sound_register {dm : DeviceManager Wm MsgID Spec} (sound : Sound setting dm) (wm : Wm) (deviceID : DeviceID)
    (spec : Option Spec) (fits : conflicts setting dm wm deviceID = false) :
    Sound setting (register setting dm wm deviceID spec) := by
  refine ⟨?_, sound.asked, ?_, ?_, ?_, ?_⟩
  · simp only [register]
    split
    · exact setKey_nodup sound.mapped _ _
    · exact sound.mapped
  · intro key holder found
    rw [register_map_lookup] at found
    split at found
    · rename_i new
      exact new.2 ▸ open_of_fits sound fits new.1
    · exact sound.own key holder found
  · intro key holder found
    by_cases same : holder = wm
    · simp [register, same]
    · rw [register_map_lookup] at found
      split at found
      · exact absurd (Option.some.inj found).symm same
      · simpa [register, same] using sound.placed key holder found
  · intro key holder found
    rw [register_list_lookup]
    split
    · exact ⟨spec, rfl⟩
    · rename_i old
      rw [register_map_lookup] at found
      split at found
      · rename_i new
        exact absurd ⟨(Option.some.inj found).symm, new.2⟩ old
      · exact sound.listed key holder found
  · intro other
    by_cases same : other = wm
    · simp [register, same]
    · simpa [register, same] using sound.online other

omit [DecidableEq Wm] in
theorem sound_notify {dm : DeviceManager Wm MsgID Spec} (sound : Sound setting dm) (deviceID : String)
    (spec : Option Spec) : Sound setting (notifyLoaded setting dm deviceID spec).1 := by
  unfold notifyLoaded
  split
  · dsimp only
    split
    · exact ⟨sound.mapped, deleteKey_nodup sound.asked _, sound.own, sound.placed, sound.listed, sound.online⟩
    · exact sound
  · exact sound

theorem sound_online {dm : DeviceManager Wm MsgID Spec} (sound : Sound setting dm) (wm : Wm) (deviceID : DeviceID)
    (spec : Option Spec) : Sound setting (onDeviceOnline setting dm wm deviceID spec).1 := by
  unfold onDeviceOnline
  split
  · exact sound
  · rename_i refused
    have registered := sound_register sound wm deviceID spec (by simpa using refused)
    split
    · exact registered
    · split
      · exact registered
      · exact sound_notify registered _ _

omit [DecidableEq Wm] in
theorem saveQuery_nodup {table : Table (List (Query Wm MsgID))} (nodup : (table.map Prod.fst).Nodup) (deviceID : String)
    (query : Query Wm MsgID) : ((saveQuery table deviceID query).map Prod.fst).Nodup := by
  unfold saveQuery
  split
  · exact setKey_nodup nodup _ _
  · exact setKey_nodup nodup _ _
  · exact nodup

omit [DecidableEq Wm] in
theorem sound_query {dm : DeviceManager Wm MsgID Spec} (sound : Sound setting dm) (supervised : Option String)
    (deviceID : String) (query : Query Wm MsgID) :
    Sound setting (queryDeviceForChild setting dm supervised deviceID query).1 := by
  unfold queryDeviceForChild
  split
  · exact sound
  · cases loaded : dm.allDevicesLoaded with
    | true => exact sound
    | false =>
        have waiting := saveQuery_nodup sound.asked deviceID query
        exact ⟨sound.mapped, waiting, sound.own, sound.placed, sound.listed, sound.online⟩

/-- A purge takes off the map what the worker holds, and nothing else. -/
theorem purge_map_lookup {dm : DeviceManager Wm MsgID Spec} (sound : Sound setting dm) (wm : Wm) (key : String) :
    (onPurgeDevice dm wm).deviceMap.lookup key = (dm.deviceMap.lookup key).filter fun holder => holder ≠ wm :=
  lookup_filter_values sound.mapped (fun holder => holder ≠ wm) key

theorem purge_list_lookup (dm : DeviceManager Wm MsgID Spec) {wm other : Wm} (apart : other ≠ wm) (key : String) :
    ((onPurgeDevice dm wm).workers other).deviceList.lookup key = (dm.workers other).deviceList.lookup key := by
  simp [onPurgeDevice, apart]

theorem sound_purge {dm : DeviceManager Wm MsgID Spec} (sound : Sound setting dm) (wm : Wm) :
    Sound setting (onPurgeDevice dm wm) := by
  have left : ∀ key holder, (onPurgeDevice dm wm).deviceMap.lookup key = some holder →
      dm.deviceMap.lookup key = some holder ∧ holder ≠ wm := by
    intro key holder found
    rw [purge_map_lookup sound] at found
    simpa [Option.filter_eq_some_iff] using found
  refine ⟨sound.mapped.sublist (List.filter_sublist.map _), ?_, ?_, ?_, ?_, ?_⟩
  · simpa [onPurgeDevice, Function.comp_def] using sound.asked
  · exact fun key holder found => sound.own key holder (left key holder found).1
  · intro key holder found
    simpa [onPurgeDevice, (left key holder found).2] using sound.placed key holder (left key holder found).1
  · intro key holder found
    rw [purge_list_lookup dm (left key holder found).2]
    exact sound.listed key holder (left key holder found).1
  · intro other
    by_cases same : other = wm
    · subst same
      simpa [onPurgeDevice] using sound.online other
    · simpa [onPurgeDevice, same] using sound.online other

theorem sound_verdict {dm : DeviceManager Wm MsgID Spec} (sound : Sound setting dm) (verification : Verification Wm)
    (failed : Bool) : Sound setting (onVerdict dm verification failed) := by
  unfold onVerdict
  split
  · exact sound
  · split
    · have left : ∀ key holder, (deleteKey dm.deviceMap verification.deviceID).lookup key = some holder →
          key ≠ verification.deviceID ∧ dm.deviceMap.lookup key = some holder := by
        intro key holder found
        rw [lookup_deleteKey] at found
        split at found
        · cases found
        · rename_i differs
          exact ⟨differs, found⟩
      refine ⟨deleteKey_nodup sound.mapped _, sound.asked, ?_, ?_, ?_, ?_⟩
      · exact fun key holder found => sound.own key holder (left key holder found).2
      · intro key holder found
        have before := sound.placed key holder (left key holder found).2
        by_cases same : holder = verification.cdifDevice
        · subst same
          simpa using before
        · simpa [same] using before
      · intro key holder found
        obtain ⟨differs, held⟩ := left key holder found
        have before := sound.listed key holder held
        by_cases same : holder = verification.cdifDevice
        · subst same
          simpa [lookup_deleteKey, differs] using before
        · simpa [same] using before
      · intro other
        by_cases same : other = verification.cdifDevice
        · subst same
          simpa using sound.online verification.cdifDevice
        · simpa [same] using sound.online other
    · exact ⟨sound.mapped, sound.asked, sound.own, sound.placed, sound.listed, sound.online⟩

omit [DecidableEq Wm] in
theorem drain_nodup {left : Table (List (Query Wm MsgID))} (nodup : (left.map Prod.fst).Nodup)
    (entries : Table (List (Query Wm MsgID))) : ((drain setting left entries).1.map Prod.fst).Nodup := by
  induction entries generalizing left with
  | nil => exact nodup
  | cons entry rest ih =>
      unfold drain
      split
      · exact ih (deleteKey_nodup nodup _)
      · exact nodup

omit [DecidableEq Wm] in
/-- All but the queries and the verifications is as it was when the modules are discovered. -/
theorem discovered_keeps (setting : Setting Wm MsgID Spec) (dm : DeviceManager Wm MsgID Spec) :
    (onAllModulesDiscovered setting dm).1.deviceMap = dm.deviceMap ∧
      (onAllModulesDiscovered setting dm).1.workers = dm.workers ∧
      (onAllModulesDiscovered setting dm).1.allDevicesLoaded = true ∧
      (onAllModulesDiscovered setting dm).1.notifyDeviceLoad =
        (drain setting dm.notifyDeviceLoad (enumerated dm.notifyDeviceLoad)).1 ∧
      (onAllModulesDiscovered setting dm).2 =
        (drain setting dm.notifyDeviceLoad (enumerated dm.notifyDeviceLoad)).2.1 := by
  unfold onAllModulesDiscovered
  dsimp only
  split <;> exact ⟨rfl, rfl, rfl, rfl, rfl⟩

omit [DecidableEq Wm] in
theorem sound_discovered {dm : DeviceManager Wm MsgID Spec} (sound : Sound setting dm) :
    Sound setting (onAllModulesDiscovered setting dm).1 := by
  obtain ⟨sameMap, sameWorkers, -, waits, -⟩ := discovered_keeps setting dm
  constructor
  · rw [sameMap]
    exact sound.mapped
  · rw [waits]
    exact drain_nodup sound.asked _
  · rw [sameMap]
    exact sound.own
  · rw [sameMap, sameWorkers]
    exact sound.placed
  · rw [sameMap, sameWorkers]
    exact sound.listed
  · rw [sameWorkers]
    exact sound.online

theorem sound_step {dm : DeviceManager Wm MsgID Spec} (sound : Sound setting dm) (event : Event Wm MsgID Spec) :
    Sound setting (step setting dm event).1 := by
  cases event with
  | deviceonline wm deviceID spec => exact sound_online sound wm deviceID spec
  | querydevice supervised deviceID query => exact sound_query sound supervised deviceID.key query
  | purgedevice wm => exact sound_purge sound wm
  | modulediscovering => exact ⟨sound.mapped, sound.asked, sound.own, sound.placed, sound.listed, sound.online⟩
  | allmodulediscovered => exact sound_discovered sound
  | verdict verification failed => exact sound_verdict sound verification failed

theorem sound_run {dm : DeviceManager Wm MsgID Spec} (sound : Sound setting dm) (events : List (Event Wm MsgID Spec)) :
    Sound setting (run setting dm events).1 := by
  induction events generalizing dm with
  | nil => exact sound
  | cons event rest ih => exact ih (sound_step sound event)

end Soundness

/-! The map and the workers' lists are one directory. -/
section Refinement

variable {Wm MsgID Spec : Type} [DecidableEq Wm] {setting : Setting Wm MsgID Spec}

/-- Which worker has each device, and with which spec. -/
def directory (dm : DeviceManager Wm MsgID Spec) : Directory String Wm (Option Spec) := fun key =>
  (dm.deviceMap.lookup key).map fun wm => (wm, ((dm.workers wm).deviceList.lookup key).join)

/-- What an event is in the directory, if anything. -/
def moveOf (dm : DeviceManager Wm MsgID Spec) : Event Wm MsgID Spec → Option (Move String Wm (Option Spec))
  | .deviceonline wm deviceID spec =>
      some (if deviceID.given then .enter deviceID.key wm spec else .revise deviceID.key wm spec)
  | .purgedevice wm => some (.leave wm)
  | .verdict verification failed =>
      if verification ∈ dm.verifying ∧ failed = true ∧ verification.isReVerification = false then
        some (.strike verification.deviceID)
      else none
  | _ => none

/-- The moves of a run. -/
def moves (setting : Setting Wm MsgID Spec) (dm : DeviceManager Wm MsgID Spec) :
    List (Event Wm MsgID Spec) → List (Move String Wm (Option Spec))
  | [] => []
  | event :: rest => (moveOf dm event).toList ++ moves setting (step setting dm event).1 rest

/-- Modules are told apart by their host paths, and no device has the name of a member of `Object.prototype`. -/
abbrev moved (setting : Setting Wm MsgID Spec) (d : Directory String Wm (Option Spec)) :
    List (Move String Wm (Option Spec)) → Directory String Wm (Option Spec) :=
  moveAll setting.hostModulePath (fun key => key ∈ inheritedNames) d

omit [DecidableEq Wm] in
theorem holder_directory (dm : DeviceManager Wm MsgID Spec) (key : String) :
    holder (directory dm) key = dm.deviceMap.lookup key := by
  simp [holder, directory, Function.comp_def]

omit [DecidableEq Wm] in
/-- A worker's word that a device is online is refused exactly when the directory does not admit it. -/
theorem conflicts_iff {dm : DeviceManager Wm MsgID Spec} (sound : Sound setting dm) (wm : Wm) {deviceID : DeviceID}
    (given : deviceID.given = true) : conflicts setting dm wm deviceID = false ↔
      Admits setting.hostModulePath (fun key => key ∈ inheritedNames) (directory dm) deviceID.key wm := by
  unfold conflicts existing Admits
  rw [holder_directory, given, Bool.true_and]
  cases found : get dm.deviceMap deviceID.key with
  | own holder =>
      have held := own_lookup found
      by_cases same : setting.hostModulePath holder = setting.hostModulePath wm <;>
        simp [held, conflictingModulePath, sound.placed _ _ held, same]
  | inherited =>
      have known := inherited_mem found
      cases held : dm.deviceMap.lookup deviceID.key with
      | none => simp [conflictingModulePath, known]
      | some holder => exact absurd known (sound.own _ _ held)
  | undefined =>
      have unknown : deviceID.key ∉ inheritedNames := by
        intro known
        rw [get_inherited (undefined_lookup found) known] at found
        cases found
      simp [undefined_lookup found, conflictingModulePath, unknown]

theorem directory_register (dm : DeviceManager Wm MsgID Spec) (wm : Wm) (deviceID : DeviceID) (spec : Option Spec) :
    directory (register setting dm wm deviceID spec) =
      if deviceID.given ∨ dm.deviceMap.lookup deviceID.key = some wm then
        Function.update (directory dm) deviceID.key (some (wm, spec))
      else directory dm := by
  funext key
  by_cases same : key = deviceID.key
  · subst same
    simp only [directory, register_map_lookup, register_list_lookup, and_true]
    cases given : deviceID.given with
    | true => simp
    | false =>
        cases held : dm.deviceMap.lookup deviceID.key with
        | none => simp [directory, held]
        | some holder =>
            by_cases isHolder : holder = wm <;> simp [directory, held, isHolder]
  · have others : directory (register setting dm wm deviceID spec) key = directory dm key := by
      simp [directory, register_map_lookup, register_list_lookup, same]
    rw [others]
    split <;> simp [same]

omit [DecidableEq Wm] in
theorem directory_notify (dm : DeviceManager Wm MsgID Spec) (deviceID : String) (spec : Option Spec) :
    directory (notifyLoaded setting dm deviceID spec).1 = directory dm := by
  unfold notifyLoaded
  split
  · dsimp only
    split <;> rfl
  · rfl

theorem directory_online (dm : DeviceManager Wm MsgID Spec) (wm : Wm) (deviceID : DeviceID)
    (spec : Option Spec) : directory (onDeviceOnline setting dm wm deviceID spec).1 =
      if conflicts setting dm wm deviceID then directory dm
      else directory (register setting dm wm deviceID spec) := by
  unfold onDeviceOnline
  split
  · rfl
  · split
    · rfl
    · split
      · rfl
      · exact directory_notify _ _ _

theorem directory_purge {dm : DeviceManager Wm MsgID Spec} (sound : Sound setting dm) (wm : Wm) (key : String) :
    directory (onPurgeDevice dm wm) key = if dm.deviceMap.lookup key = some wm then none else directory dm key := by
  simp only [directory]
  rw [purge_map_lookup sound]
  cases held : dm.deviceMap.lookup key with
  | none => simp
  | some holder =>
      by_cases same : holder = wm
      · simp [same]
      · simp [same, Option.filter, purge_list_lookup dm same key]

theorem directory_struck (dm : DeviceManager Wm MsgID Spec) (verification : Verification Wm) (key : String) :
    directory (onVerdict dm verification true) key =
      if verification ∈ dm.verifying ∧ verification.isReVerification = false ∧ key = verification.deviceID then none
      else directory dm key := by
  unfold onVerdict
  by_cases due : verification ∈ dm.verifying
  · rw [if_neg (not_not_intro due)]
    cases again : verification.isReVerification with
    | true => simp [directory, due]
    | false =>
        by_cases same : key = verification.deviceID
        · simp [directory, lookup_deleteKey, due, same]
        · simp only [directory, lookup_deleteKey, due, same, and_false, if_false, Bool.not_false,
            Bool.and_self, if_true]
          cases held : dm.deviceMap.lookup key with
          | none => rfl
          | some holder =>
              by_cases isHolder : holder = verification.cdifDevice
              · subst isHolder
                simp [lookup_deleteKey, same]
              · simp [isHolder]
  · simp [due]

/-- One event is its move. -/
theorem directory_step {dm : DeviceManager Wm MsgID Spec} (sound : Sound setting dm) (event : Event Wm MsgID Spec) :
    directory (step setting dm event).1 = moved setting (directory dm) (moveOf dm event).toList := by
  cases event with
  | deviceonline wm deviceID spec =>
      have online := @directory_online _ _ _ _ setting dm wm deviceID spec
      cases given : deviceID.given with
      | true =>
          have admits := conflicts_iff sound wm given
          cases refused : conflicts setting dm wm deviceID with
          | true =>
              have closed := mt admits.2 (by simp [refused])
              simpa [refused, step, moveOf, given, moved, moveAll, move, closed] using online
          | false =>
              have opened := admits.1 refused
              rw [refused, directory_register] at online
              simpa [step, moveOf, given, moved, moveAll, move, opened] using online
      | false =>
          have fits : conflicts setting dm wm deviceID = false := by simp [conflicts, given]
          rw [fits, directory_register] at online
          simpa [step, moveOf, given, moved, moveAll, move, holder_directory] using online
  | querydevice supervised deviceID query =>
      show directory (queryDeviceForChild setting dm supervised deviceID.key query).1 = directory dm
      unfold queryDeviceForChild
      split
      · rfl
      · split <;> rfl
  | purgedevice wm =>
      funext key
      have purged := directory_purge sound wm key
      simpa [step, moveOf, moved, moveAll, move, holder_directory] using purged
  | modulediscovering => rfl
  | allmodulediscovered =>
      obtain ⟨sameMap, sameWorkers, -⟩ := discovered_keeps setting dm
      show directory (onAllModulesDiscovered setting dm).1 = directory dm
      unfold directory
      rw [sameMap, sameWorkers]
  | verdict verification failed =>
      funext key
      cases failed with
      | false =>
          simp only [step, moveOf, Bool.false_eq_true, false_and, and_false, if_false, Option.toList_none]
          unfold onVerdict
          split <;> rfl
      | true =>
          have struck := directory_struck dm verification key
          by_cases due : verification ∈ dm.verifying ∧ verification.isReVerification = false
          · simp only [step, moveOf, due, and_self, if_true, Option.toList_some, moved, moveAll, List.foldl_cons,
              List.foldl_nil, move, struck, true_and]
            by_cases same : key = verification.deviceID <;> simp [same]
          · have still : moveOf dm (.verdict verification true : Event Wm MsgID Spec) = none := by
              simpa [moveOf] using due
            rw [still, step, struck, if_neg (fun all => due ⟨all.1, all.2.1⟩)]
            rfl

/-- A run is its moves. -/
theorem directory_run {dm : DeviceManager Wm MsgID Spec} (sound : Sound setting dm)
    (events : List (Event Wm MsgID Spec)) :
    directory (run setting dm events).1 = moved setting (directory dm) (moves setting dm events) := by
  induction events generalizing dm with
  | nil => rfl
  | cons event rest ih =>
      rw [run, moves, ih (sound_step sound event), directory_step sound event]
      exact (move_all_append _ _ _ _ _).symm

/-! A device stays with its module. -/

/-- The events after which a device may be another module's: its own module is purged, or has failed to verify when
the server started. -/
def EndsDevice (setting : Setting Wm MsgID Spec) (deviceID module : String) : Event Wm MsgID Spec → Prop
  | .purgedevice wm => setting.hostModulePath wm = module
  | .verdict verification failed => failed = true ∧ verification.isReVerification = false ∧ verification.deviceID = deviceID
  | _ => False

theorem move_ends {dm : DeviceManager Wm MsgID Spec} {event : Event Wm MsgID Spec} {m : Move String Wm (Option Spec)}
    (isMove : moveOf dm event = some m) {deviceID module : String}
    (givesUp : GivesUp setting.hostModulePath deviceID module m) : EndsDevice setting deviceID module event := by
  cases event with
  | deviceonline wm other spec =>
      obtain rfl := Option.some.inj isMove
      cases given : other.given <;> simp [given, GivesUp] at givesUp
  | purgedevice wm =>
      obtain rfl := Option.some.inj isMove
      exact givesUp
  | verdict verification failed =>
      simp only [moveOf] at isMove
      split at isMove
      · rename_i due
        obtain rfl := Option.some.inj isMove
        exact ⟨due.2.1, due.2.2, givesUp⟩
      · cases isMove
  | _ => cases isMove

theorem mem_moves {dm : DeviceManager Wm MsgID Spec} {events : List (Event Wm MsgID Spec)}
    {m : Move String Wm (Option Spec)} (member : m ∈ moves setting dm events) :
    ∃ before, ∃ event ∈ events, moveOf before event = some m := by
  induction events generalizing dm with
  | nil => cases member
  | cons event rest ih =>
      rcases List.mem_append.1 member with now | later
      · exact ⟨dm, event, List.mem_cons_self, Option.mem_toList.1 now⟩
      · obtain ⟨before, other, isLater, isMove⟩ := ih later
        exact ⟨before, other, List.mem_cons_of_mem _ isLater, isMove⟩

/-- In every run, a device that is online stays with the module that has it, whichever workers say that they have it,
until a worker of that module is purged or the device fails to verify when the server starts. -/
theorem device_stays (first later : List (Event Wm MsgID Spec)) {deviceID : String} {wm : Wm}
    (online : (run setting start first).1.deviceMap.lookup deviceID = some wm)
    (kept : ∀ event ∈ later, ¬ EndsDevice setting deviceID (setting.hostModulePath wm) event) :
    ∃ now, (run setting (run setting start first).1 later).1.deviceMap.lookup deviceID = some now ∧
      setting.hostModulePath now = setting.hostModulePath wm := by
  have sound : Sound setting (run setting start first).1 := sound_run sound_start first
  have held : heldBy setting.hostModulePath (directory (run setting start first).1) deviceID =
      some (setting.hostModulePath wm) := by
    rw [heldBy, holder_directory, online, Option.map_some]
  have keeps : ∀ m ∈ moves setting (run setting start first).1 later,
      ¬ GivesUp setting.hostModulePath deviceID (setting.hostModulePath wm) m := by
    intro m member givesUp
    obtain ⟨before, event, isEvent, isMove⟩ := mem_moves member
    exact kept event isEvent (move_ends isMove givesUp)
  have still := held_moves setting.hostModulePath (fun key => key ∈ inheritedNames) held keeps
  rw [← moved, ← directory_run sound, heldBy, holder_directory] at still
  exact Option.map_eq_some_iff.1 still

/-- The workers of two modules: the second module's is 1. The id 0 holds a port. -/
def twoModules : Setting Nat Nat String :=
  ⟨false, fun wm => if wm = 1 then "/srv/mail" else "/srv/shop", fun msgID => msgID != 0, fun _ => true⟩

theorem device_stays_here :
    let first : List (Event Nat Nat String) := [.deviceonline 0 (.name "scales") (some "weighs")]
    let later : List (Event Nat Nat String) := [.deviceonline 1 (.name "scales") (some "lies"), .purgedevice 1,
      .deviceonline 2 (.name "scales") (some "weighs")]
    ∃ now, (run twoModules (run twoModules start first).1 later).1.deviceMap.lookup "scales" = some now ∧
      twoModules.hostModulePath now = twoModules.hostModulePath 0 := by
  intro first later
  have online : (run twoModules start first).1.deviceMap.lookup "scales" = some 0 := by decide +kernel
  have kept : ∀ event ∈ later, ¬ EndsDevice twoModules "scales" (twoModules.hostModulePath 0) event := by
    simp [later, EndsDevice, twoModules]
  exact device_stays first later online kept

end Refinement

end Countinghouse.DeviceDirectory
