import Mathlib
import Countinghouse.PlainObject
import Countinghouse.SplitText

/-!
The main thread's side of its module workers: onWorkerMessage, sendMessageToWorker and
endWith of lib/worker-message.js, the handlers of lib/peer-channel-broker.js and of
lib/device-manager.js, and the one for violations of lib/module-manager.js.

A worker may post any value that `postMessage` takes. The AuthProvider, the metering
provider, redis, the job queue and the timers of sessions answer at any time, and so do
the workers. Whether these libraries throw on what they are given, and whether the
callbacks of other requests return, are parameters.
-/

namespace Countinghouse.MainThread

open PlainObject SplitText

abbrev WorkerId := Nat

/-! Values that cross `postMessage`. -/
section Values

inductive Value where
  | undefined
  | null
  | string (text : String)
  | scalar (text : String)
  /-- An object: its `String(..)`, which throws when it has a `toString` of its own, whether `postMessage` takes it
  (not when it holds a port that came with it), and its own properties. -/
  | object (text : Option String) (clones : Bool) (fields : List (String × Value))

def Value.isNull : Value → Bool
  | .undefined | .null => true
  | _ => false

def Value.text : Value → Option String
  | .undefined => some "undefined"
  | .null => some "null"
  | .string text | .scalar text => some text
  | .object text _ _ => text

def Value.clones : Value → Bool
  | .object _ clones _ => clones
  | _ => true

@[simp]
theorem Value.clones_undefined : Value.undefined.clones = true := rfl

@[simp]
theorem Value.clones_null : Value.null.clones = true := rfl

@[simp]
theorem Value.clones_string (text : String) : (Value.string text).clones = true := rfl

def Value.is (value : Value) (text : String) : Bool :=
  match value with
  | .string own => own == text
  | _ => false

def Value.read (value : Value) (name : String) : Value :=
  match value with
  | .object _ _ fields => (fields.lookup name).getD .undefined
  | _ => .undefined

/-- `value.name`, which throws on null and undefined. -/
def Value.member (value : Value) (name : String) : Option Value :=
  if value.isNull then none else some (value.read name)

/-- `left === right` for values of different messages: objects are never the same. -/
def Value.same : Value → Value → Bool
  | .undefined, .undefined | .null, .null => true
  | .string left, .string right | .scalar left, .scalar right => left == right
  | _, _ => false

/-- A member of `Object.prototype` as a value: a function, which is not cloned, except for `__proto__`. -/
def inheritedMember (name : String) : Value :=
  .object (some name) (name == "__proto__") []

end Values

structure Failure where
  code : Value
  message : Value

/-- A call of sendInvokeActionMessageToWorker; `number` is history. -/
structure Hop where
  number : Nat
  caller : WorkerId
  msgID : Value
  billingKey : Value
  deviceID : Value
  serviceID : Value
  actionName : Value
  args : Value

inductive Service where
  | deviceLog | redisCommand | jobInfo | peerMetering
  deriving DecidableEq

inductive Callback where
  /-- Another request's: whether it returns. -/
  | client (returns : Option Failure → Value → Bool)
  | allow (number : Nat) (caller callee : WorkerId) (targetDeviceID : String)
  | hop (hop : Hop)

/-- Messages of the main thread; the number of the request they belong to is history. -/
inductive Post where
  | deny (number : Option Nat) (targetDeviceID errMsg errCode : Value)
  | grant (number : Nat) (targetDeviceID : String) (targetWorkerId : WorkerId)
  | open (number : Nat) (callerWorkerId : WorkerId) (appKey : Value) (targetDeviceID : String)
  | allow (number id : Nat) (callerWorkerId : WorkerId) (deviceID : String)
  | invoke (number id : Nat) (deviceID serviceID actionName args : Value)
  | invokeReply (number : Nat) (msgID errMsg errCode data : Value)
  | rateLimited (msgID : Value)
  | queryReply (msgID errMsg spec : Value)
  | serviceReply (service : Service) (msgID errMsg result : Value)
  | invalidate (workerId : Option WorkerId)
  | other (id : Nat)

def Post.clones : Post → Bool
  | .deny _ targetDeviceID errMsg errCode => targetDeviceID.clones && errMsg.clones && errCode.clones
  | .open _ _ appKey _ => appKey.clones
  | .invoke _ _ deviceID serviceID actionName args =>
      deviceID.clones && serviceID.clones && actionName.clones && args.clones
  | .invokeReply _ msgID errMsg errCode data => msgID.clones && errMsg.clones && errCode.clones && data.clones
  | .rateLimited msgID => msgID.clones
  | .queryReply msgID errMsg spec => msgID.clones && errMsg.clones && spec.clones
  | .serviceReply _ msgID errMsg result => msgID.clones && errMsg.clones && result.clones
  | .grant .. | .allow .. | .invalidate _ | .other _ => true

structure WorkerMessage where
  msgQueue : Table Callback
  msgID : Nat
  ended : Option Failure
  modulePath : Value
  hostModulePath : Option String
  loaded : Bool
  deviceList : Table Value
  /-- None until the worker has been given a job. -/
  jobsInFlight : Option (List String)
  violationReports : Nat
  selfInvalidateThisTurn : Bool

/-- A userAuth that has not answered. The callee is what `deviceMap` gave: a WorkerMessage, or a member of
`Object.prototype`. -/
inductive Ask where
  | missingPeer (number : Nat) (targetDeviceID : String) (caller : WorkerId) (missing : Failure)
  | missingHop (hop : Hop) (missing : Failure)
  | peer (number : Nat) (targetDeviceID : String) (appKey : Value) (caller : WorkerId) (callee : Option WorkerId)
  | hop (hop : Hop) (key : String) (callee : Option WorkerId)

inductive Kind where
  | peer | hop
  deriving DecidableEq

/-- History: what a worker has asked for. -/
structure Request where
  kind : Kind
  caller : WorkerId
  key : String

structure Call where
  service : Service
  worker : WorkerId
  msgID : Value

structure State where
  workers : WorkerId → WorkerMessage
  deviceMap : Table WorkerId
  /-- `errorForDevice` of the supervisor: the devices of modules that restart or are suspended. -/
  supervisor : String → Option Failure
  channelRegistry : List (WorkerId × Option WorkerId)
  allDevicesLoaded : Bool
  /-- The queries that wait for a device: who asks, and the msgID. -/
  notifyDeviceLoad : Table (List (WorkerId × Value))
  asks : List Ask
  sessions : List Hop
  metering : List (Hop × Value)
  calls : List Call
  posted : List (WorkerId × Post)
  /-- History: requests by their number, devices ever registered, and the callbacks stored by sendMessageToWorker and
  called since. -/
  requests : List Request
  registered : List (String × WorkerId)
  stored : List (WorkerId × String)
  called : List (WorkerId × String)

def State.fresh : State where
  workers := fun _ => ⟨[], 0, none, .undefined, none, false, [], none, 0, false⟩
  deviceMap := []
  supervisor := fun _ => none
  channelRegistry := []
  allDevicesLoaded := false
  notifyDeviceLoad := []
  asks := []
  sessions := []
  metering := []
  calls := []
  posted := []
  requests := []
  registered := []
  stored := []
  called := []

def State.withWorker (s : State) (worker : WorkerId) (edit : WorkerMessage → WorkerMessage) : State :=
  { s with workers := Function.update s.workers worker (edit (s.workers worker)) }

/-- What a handler leaves, and whether it threw. -/
structure Ran where
  state : State
  threw : Bool

def returns (s : State) : Ran := ⟨s, false⟩

def throws (s : State) : Ran := ⟨s, true⟩

def Ran.andThen (ran : Ran) (next : State → Ran) : Ran :=
  if ran.threw then ran else next ran.state

/-- What the model leaves open: the error texts of lib/error-info, options, and the libraries. -/
structure Host where
  errorInfo : Table String
  debug : Bool
  ci : Bool
  /-- Keys on which the AuthProvider throws, and on which the metering provider does. -/
  authThrows : Value → Bool
  meteringThrows : Value → Bool
  /-- The commands of lib/supported-redis-commands.json that redis has. -/
  redisCommands : List String
  /-- The redis client throws on a command with these arguments. -/
  redisThrows : String → List Value → Bool
  /-- `JSON.stringify` of an object, which throws when it holds itself or a bigint, and json-stringify-safe. -/
  stringify : Value → Option String
  stringifySafe : Value → Option String

variable (host : Host)

def getErrorMessage (code : Value) : Option Value :=
  code.text.map fun key =>
    match get host.errorInfo key with
    | .own message => .string message
    | .inherited => inheritedMember key
    | .undefined => code

def runtimeError (code : String) : Failure :=
  ⟨.string code, .string ((host.errorInfo.lookup code).getD code)⟩

/-- The same with a detail, which is put after the text of the code. -/
def runtimeErrorFor (code detail : String) : Failure :=
  ⟨.string code, .string (((host.errorInfo.lookup code).map fun message => message ++ ": " ++ detail).getD code)⟩

def encodeLegacyTool (deviceID serviceID actionName : Value) : Option String := do
  let device ← deviceID.text
  let service ← serviceID.text
  let action ← actionName.text
  return device ++ ":::" ++ service ++ ":::" ++ action

/-- The text of a value that has been made a text before. -/
def Value.shown (value : Value) : String := value.text.getD ""

/-! Sending. -/
section Sending

def postMessage (s : State) (worker : WorkerId) (message : Post) : Ran :=
  if message.clones then returns { s with posted := s.posted ++ [(worker, message)] } else throws s

/-- `sendMessageToWorker` without a callback. -/
def sendReply (s : State) (worker : WorkerId) (message : Post) : Ran :=
  if (s.workers worker).ended.isSome then returns s else postMessage s worker message

def localCB (s : State) (hop : Hop) (err : Option Failure) (data : Value) : Ran :=
  match err with
  | some err =>
      sendReply s hop.caller
        (.invokeReply hop.number hop.msgID err.message (if err.code.isNull then .null else err.code) data)
  | none => sendReply s hop.caller (.invokeReply hop.number hop.msgID .null .undefined data)

/-- The `callback` of a hop's session: the first call of it counts. -/
def sessionCallback (s : State) (hop : Hop) (err : Option Failure) (data : Value) : Ran :=
  if s.sessions.any fun open' => open'.number == hop.number then
    localCB { s with sessions := s.sessions.filter fun open' => open'.number != hop.number } hop err data
  else returns s

/-- The callback of a hop's `sendInvokeActionMessage`. -/
def hopAnswered (s : State) (hop : Hop) (err : Option Failure) (data : Value) : Ran :=
  match err with
  | some err =>
      let code := if err.code.isNull then err.message else err.code
      match getErrorMessage host code with
      | none => throws s
      | some message => sessionCallback s hop (some ⟨code, message⟩) data
  | none =>
      if !host.ci then sessionCallback s hop none data
      else
        match encodeLegacyTool hop.deviceID hop.serviceID hop.actionName with
        | none => throws s
        | some _ =>
            if hop.billingKey.isNull then
              sessionCallback s hop
                (some (runtimeErrorFor host "HOP_IDENTITY_UNRESOLVED" (hop.serviceID.shown ++ "/" ++ hop.actionName.shown)))
                .null
            else if host.meteringThrows hop.billingKey then throws s
            else returns { s with metering := s.metering ++ [(hop, data)] }

def runCallback (s : State) (callback : Callback) (err : Option Failure) (data : Value) : Ran :=
  match callback with
  | .client completes => if completes err data then returns s else throws s
  | .allow number caller callee targetDeviceID =>
      match err with
      | some err => postMessage s caller (.deny (some number) (.string targetDeviceID) err.message err.code)
      | none => postMessage s caller (.grant number targetDeviceID callee)
  | .hop hop => hopAnswered host s hop err data

def callStored (s : State) (worker : WorkerId) (key : String) (callback : Callback) (err : Option Failure)
    (data : Value) : Ran :=
  runCallback host { s with called := s.called ++ [(worker, key)] } callback err data

def State.store (s : State) (worker : WorkerId) (callback : Callback) : State :=
  let key := toString (s.workers worker).msgID
  let kept := s.withWorker worker fun wm =>
    { wm with msgQueue := setKey wm.msgQueue key callback, msgID := wm.msgID + 1 }
  { kept with stored := s.stored ++ [(worker, key)] }

def sendMessageToWorker (s : State) (worker : WorkerId) (message : Nat → Post) (callback : Callback) : Ran :=
  match (s.workers worker).ended with
  | some err => runCallback host s callback (some err) .null
  | none => postMessage (s.store worker callback) worker (message (s.workers worker).msgID)

def callPending (worker : WorkerId) (err : Failure) : State → Table Callback → Ran
  | s, [] => returns s
  | s, (key, callback) :: rest =>
      (callStored host s worker key callback (some err) .null).andThen fun s => callPending worker err s rest

def endWith (s : State) (worker : WorkerId) (err : Failure) : Ran :=
  if (s.workers worker).ended.isSome then returns s
  else
    callPending host worker err (s.withWorker worker fun wm => { wm with ended := some err, msgQueue := [] })
      (s.workers worker).msgQueue

end Sending

/-! Requests. -/
section Requests

def userAuth (s : State) (appKey : Value) (ask : Ask) : Ran :=
  if host.authThrows appKey then throws s else returns { s with asks := s.asks ++ [ask] }

def State.note (s : State) (request : Request) : State :=
  { s with requests := s.requests ++ [request] }

def grant (s : State) (number : Nat) (targetDeviceID : String) (appKey : Value) (caller : WorkerId)
    (callee : Option WorkerId) : Ran :=
  if (caller, callee) ∈ s.channelRegistry then
    -- `grantKey` makes a text of the key, and a member of Object.prototype has no sendPeerChannelAllowToChild
    match appKey.text, callee with
    | some _, some worker =>
        sendMessageToWorker host s worker (fun id => .allow number id caller targetDeviceID)
          (.allow number caller worker targetDeviceID)
    | _, _ => throws s
  else
    let opened := { s with channelRegistry := s.channelRegistry ++ [(caller, callee)] }
    match appKey.text, callee with
    | some _, some worker =>
        (postMessage opened worker (.open number caller appKey targetDeviceID)).andThen fun s =>
          postMessage s caller (.grant number targetDeviceID worker)
    | _, _ => throws opened

/-- `data != null ? data.name : null` -/
def orNull (data : Value) (name : String) : Value :=
  if data.isNull then .null else data.read name

def handleRequest (s : State) (data : Value) (caller : WorkerId) : Ran :=
  match orNull data "targetDeviceID" with
  | .string targetDeviceID =>
      let appKey := orNull data "appKey"
      let number := s.requests.length
      let s := s.note ⟨.peer, caller, targetDeviceID⟩
      let deny (err : Failure) : Ran :=
        postMessage s caller (.deny (some number) (.string targetDeviceID) err.message err.code)
      match get s.deviceMap targetDeviceID with
      | .undefined =>
          match s.supervisor targetDeviceID with
          | some missing => userAuth host s appKey (.missingPeer number targetDeviceID caller missing)
          | none => deny (runtimeError host "DEVICE_NOT_FOUND")
      | .own callee =>
          if callee = caller then deny (runtimeError host "PEER_SELF_TARGET")
          else userAuth host s appKey (.peer number targetDeviceID appKey caller (some callee))
      | .inherited => userAuth host s appKey (.peer number targetDeviceID appKey caller none)
  | _ => returns s

/-- The detail of a DEVICE_NOT_FOUND, when its code has a text. -/
def missingDetail (deviceID : Value) : Option String :=
  match deviceID with
  | .null | .undefined => some ""
  | .object .. => host.stringify deviceID
  | .string text | .scalar text => some text

/-- `missingDeviceError`: the supervisor's error, or DEVICE_NOT_FOUND, which is not made of an id that has no JSON. -/
def missingDeviceError (s : State) (deviceID : Value) (key : String) : Option (Bool × Failure) :=
  match s.supervisor key with
  | some missing => some (true, missing)
  | none =>
      match host.errorInfo.lookup "DEVICE_NOT_FOUND" with
      | none => some (false, runtimeError host "DEVICE_NOT_FOUND")
      | some _ => (missingDetail host deviceID).map fun detail => (false, runtimeErrorFor host "DEVICE_NOT_FOUND" detail)

def sendInvokeActionMessageToWorker (s : State) (appKey : Value) (hop : Hop) : Ran :=
  match hop.deviceID.text with
  | none => throws s
  | some key =>
      let s := s.note ⟨.hop, hop.caller, key⟩
      match get s.deviceMap key with
      | .undefined =>
          match missingDeviceError host s hop.deviceID key with
          | none => throws s
          | some (true, missing) => userAuth host s appKey (.missingHop hop missing)
          | some (false, _) =>
              sendReply s hop.caller (.invokeReply hop.number hop.msgID (.string "device not found in map") .undefined .null)
      | .own callee => userAuth host s appKey (.hop hop key (some callee))
      | .inherited => userAuth host s appKey (.hop hop key none)

def onInvokeForeignAction (s : State) (data id : Value) (caller : WorkerId) : Ran :=
  if data.isNull then throws s
  else
    let appKey := data.read "appKey"
    let billingKey := if (data.read "billingKey").isNull then appKey else data.read "billingKey"
    sendInvokeActionMessageToWorker host s appKey
      ⟨s.requests.length, caller, id, billingKey, data.read "deviceID", data.read "serviceID", data.read "actionName",
        data.read "args"⟩

def authAnswered (s : State) (ask : Ask) (err : Option Failure) : Ran :=
  match ask with
  | .missingPeer number targetDeviceID caller missing =>
      let answer := err.getD missing
      postMessage s caller (.deny (some number) (.string targetDeviceID) answer.message answer.code)
  | .missingHop hop missing =>
      let answer := err.getD missing
      sendReply s hop.caller (.invokeReply hop.number hop.msgID answer.message answer.code .null)
  | .peer number targetDeviceID appKey caller callee =>
      match err with
      | some err => postMessage s caller (.deny (some number) (.string targetDeviceID) err.message err.code)
      | none => grant host s number targetDeviceID appKey caller callee
  | .hop hop _ callee =>
      match err with
      | some err => sendReply s hop.caller (.invokeReply hop.number hop.msgID err.message err.code .null)
      | none =>
          let s := { s with sessions := s.sessions ++ [hop] }
          match callee with
          | some worker =>
              sendMessageToWorker host s worker
                (fun id => .invoke hop.number id hop.deviceID hop.serviceID hop.actionName hop.args) (.hop hop)
          | none => throws s

end Requests

/-! Messages of workers. -/
section Messages

def conflicts (s : State) (held : Slot WorkerId) (modulePath : Value) : Bool :=
  match held with
  | .undefined => false
  | .inherited => true
  | .own worker =>
      let existing := (s.workers worker).modulePath
      existing.isNull || !existing.same modulePath

/-- The text of a conflict is made of the `friendlyName` of the spec and the path that is there. -/
def conflictText (s : State) (held : Slot WorkerId) (spec : Value) : Option String := do
  let device ← spec.member "device"
  let name ← (← device.member "friendlyName").text
  let existing ←
    match held with
    | .own worker =>
        let path := (s.workers worker).modulePath
        if path.isNull then some "<unknown>" else path.text
    | _ => some "<unknown>"
  return "friendlyName \"" ++ name ++ "\" is already registered by " ++ existing

def answerQueries (reply : Value → Post) : State → List (WorkerId × Value) → Ran
  | s, [] => returns s
  | s, (worker, msgID) :: rest =>
      (sendReply s worker (reply msgID)).andThen fun s => answerQueries reply s rest

def register (s : State) (worker : WorkerId) (modulePath deviceID spec : Value) (key : String) : State :=
  let online := s.withWorker worker fun wm =>
    { wm with modulePath := modulePath, deviceList := setKey wm.deviceList key spec }
  if deviceID.isNull then online
  else { online with deviceMap := setKey s.deviceMap key worker, registered := s.registered ++ [(key, worker)] }

/-- `createRateLimiterForDevice` reads `spec.device` of each device of the worker. -/
def limiterThrows (wm : WorkerMessage) : Bool :=
  !host.debug && wm.deviceList.any fun device => device.2.isNull

def notifyLoaded (s : State) (key : String) (spec : Value) : Ran :=
  match get s.notifyDeviceLoad key with
  | .undefined => returns s
  -- no such id gets past the conflict
  | .inherited => throws s
  | .own queries =>
      (answerQueries (fun msgID => .queryReply msgID .null spec) s queries).andThen fun s =>
        returns { s with notifyDeviceLoad := deleteKey s.notifyDeviceLoad key }

def onDeviceOnline (s : State) (data : Value) (worker : WorkerId) : Ran :=
  if data.isNull then throws s
  else
    let deviceID := data.read "deviceID"
    let spec := data.read "spec"
    let modulePath := (((s.workers worker).hostModulePath).map Value.string).getD (data.read "modulePath")
    match deviceID.text with
    | none => throws s
    | some key =>
        if !deviceID.isNull && conflicts s (get s.deviceMap key) modulePath then
          if (conflictText s (get s.deviceMap key) spec).isSome then returns s else throws s
        else
          let online := register s worker modulePath deviceID spec key
          if limiterThrows host (online.workers worker) then throws online
          else if s.allDevicesLoaded then returns online
          else notifyLoaded online key spec

/-- `runsJob`; the id is made a text only for a worker that has been given a job. -/
def runsJob (wm : WorkerMessage) (jobID : Value) : Option Bool :=
  match wm.jobsInFlight with
  | none => some false
  | some jobs => jobID.text.map fun id => jobs.contains id

/-- A job is given to the worker, or done. -/
def WorkerMessage.setJob (wm : WorkerMessage) (jobID : String) (runs : Bool) : WorkerMessage :=
  let others := (wm.jobsInFlight.getD []).filter fun other => other != jobID
  { wm with jobsInFlight := some (if runs then others ++ [jobID] else others) }

def onJobProgress (s : State) (data : Value) (worker : WorkerId) : Ran :=
  if data.isNull then throws s
  else
    match runsJob (s.workers worker) (data.read "jobID") with
    | none => throws s
    | some true => returns s
    -- the refusal is logged with the id
    | some false => if (data.read "jobID").text.isSome then returns s else throws s

def slotValue (key : String) : Slot Value → Value
  | .own value => value
  | .inherited => inheritedMember key
  | .undefined => .undefined

def saveQuery (s : State) (key : String) (query : WorkerId × Value) : Ran :=
  match get s.notifyDeviceLoad key with
  | .own queries => returns { s with notifyDeviceLoad := setKey s.notifyDeviceLoad key (queries ++ [query]) }
  | .undefined => returns { s with notifyDeviceLoad := setKey s.notifyDeviceLoad key [query] }
  -- a member of Object.prototype has no push
  | .inherited => throws s

def queryDeviceForChild (s : State) (deviceID msgID : Value) (worker : WorkerId) : Ran :=
  match deviceID.text with
  | none => throws s
  | some key =>
      match get s.deviceMap key with
      | .own callee =>
          sendReply s worker (.queryReply msgID .null (slotValue key (get (s.workers callee).deviceList key)))
      | _ =>
          match missingDeviceError host s deviceID key with
          | none => throws s
          | some (_, missing) =>
              if s.allDevicesLoaded then sendReply s worker (.queryReply msgID missing.message .null)
              else saveQuery s key (worker, msgID)

def State.call (s : State) (service : Service) (worker : WorkerId) (msgID : Value) : State :=
  { s with calls := s.calls ++ [⟨service, worker, msgID⟩] }

def logEntry (entry : Value) : Option Value :=
  match entry with
  | .null | .object .. => (host.stringifySafe entry).map Value.string
  | _ => some entry

/-- The handler of devicelog, with `__deviceLogWithID`. -/
def onDeviceLog (s : State) (data id : Value) (worker : WorkerId) : Ran :=
  if data.isNull then throws s
  else
    let deviceID := data.read "deviceID"
    if deviceID.isNull || deviceID.is "" then returns s
    else
      match logEntry host (data.read "data") with
      | none => throws s
      | some entry =>
          if host.debug then returns s
          else
            match deviceID.text with
            | none => throws s
            | some key =>
                if host.redisThrows "multi" [.string key, entry, data.read "timestamp"] then throws s
                else returns (s.call .deviceLog worker id)

def isCommand (op : Value) : Bool := host.redisCommands.any op.is

def onRedisCommand (s : State) (data id : Value) (worker : WorkerId) : Ran :=
  if data.isNull then throws s
  else
    let op := data.read "op"
    match op.text with
    | none => throws s
    | some name =>
        if isCommand host op then
          if host.redisThrows name [data.read "data"] then throws s else returns (s.call .redisCommand worker id)
        else
          sendReply s worker
            (.serviceReply .redisCommand id
              (.string (String.ofList (sliceUnits 64 name.toList) ++ " is not a supported redis command")) .undefined)

def onGetJobInfo (s : State) (data id : Value) (worker : WorkerId) : Ran :=
  if data.isNull then throws s
  else
    match runsJob (s.workers worker) (data.read "jobID") with
    | none => throws s
    | some true => returns (s.call .jobInfo worker id)
    | some false =>
        sendReply s worker (.serviceReply .jobInfo id (.string "that job is not running on this worker") .undefined)

def handleMeteringRequest (s : State) (data id : Value) (worker : WorkerId) : Ran :=
  if data.isNull || !host.ci then
    sendReply s worker (.serviceReply .peerMetering id (.string "metering unavailable") .null)
  else
    match encodeLegacyTool (data.read "deviceID") (data.read "serviceID") (data.read "actionName") with
    | none => throws s
    | some _ =>
        if host.meteringThrows (data.read "callerModule") then throws s
        else returns (s.call .peerMetering worker id)

/-- The other side of each channel of a worker is told; a member of `Object.prototype` cannot be. -/
def tellOthers (worker : WorkerId) : State → List (WorkerId × Option WorkerId) → Ran
  | s, [] => returns s
  | s, (caller, callee) :: rest =>
      if caller = worker then
        match callee with
        | none => throws s
        | some other =>
            if other = worker then tellOthers worker s rest
            else (postMessage s other (.invalidate (some worker))).andThen fun s => tellOthers worker s rest
      else if callee = some worker then
        (postMessage s caller (.invalidate (some worker))).andThen fun s => tellOthers worker s rest
      else tellOthers worker s rest

def invalidateWorker (s : State) (worker : WorkerId) : Ran :=
  (tellOthers worker s s.channelRegistry).andThen fun s =>
    returns
      { s with channelRegistry := s.channelRegistry.filter fun pair => !(pair.1 == worker || pair.2 == some worker) }

def MAX_VIOLATION_REPORTS : Nat := 100

def onSandboxViolation (s : State) (data : Value) : Ran :=
  if data.isNull then throws s
  else
    let rule := data.read "rule"
    let target := data.read "target"
    if rule.is "uses" then if target.text.isSome then returns s else throws s
    else if rule.is "suppressed" then returns s
    else if rule.text.isSome && target.text.isSome then returns s
    else throws s

/-- The members of `Object.prototype` that return when they are called on undefined with an error or null first. -/
def inheritedReturns (name : String) (err : Bool) : Bool :=
  name == "toString" || name == "constructor" || (name == "isPrototypeOf" && !err)

/-- The error a reply carries; `new Error(errMsg)` makes a text of it. -/
def replyError (message : Value) : Option (Option Failure) :=
  let errMsg := message.read "errMsg"
  let errCode := message.read "errCode"
  if errMsg.isNull then some none
  else errMsg.text.map fun text => some ⟨if errCode.isNull then .undefined else errCode, .string text⟩

def onReply (s : State) (message id : Value) (worker : WorkerId) : Ran :=
  match id.text with
  | none => throws s
  | some key =>
      match get (s.workers worker).msgQueue key with
      | .undefined => returns s
      | .inherited =>
          if key = "__proto__" then returns s
          else
            match replyError message with
            | none => throws s
            | some err =>
                let called := { s with called := s.called ++ [(worker, key)] }
                if inheritedReturns key err.isSome then returns called else throws called
      | .own callback =>
          match replyError message with
          | none => throws s
          | some err =>
              (callStored host s worker key callback err (message.read "data")).andThen fun s =>
                returns (s.withWorker worker fun wm => { wm with msgQueue := deleteKey wm.msgQueue key })

/-- Before the module has loaded nobody listens. -/
def emit (s : State) (worker : WorkerId) (handler : Ran) : Ran :=
  if (s.workers worker).loaded then handler else returns s

def rateExempt : List String := ["sandbox-violation", "peer-self-invalidate"]

inductive Command where
  | querydevice | invokeforeignaction | devicelog | rediscommand | getjobinfo | peerChannelRequest
  | peerMeteringRequest | peerSelfInvalidate | sandboxViolation
  deriving DecidableEq

def commandOf : Value → Option Command
  | .string "querydevice" => some .querydevice
  | .string "invokeforeignaction" => some .invokeforeignaction
  | .string "devicelog" => some .devicelog
  | .string "rediscommand" => some .rediscommand
  | .string "getjobinfo" => some .getjobinfo
  | .string "peer-channel-request" => some .peerChannelRequest
  | .string "peer-metering-request" => some .peerMeteringRequest
  | .string "peer-self-invalidate" => some .peerSelfInvalidate
  | .string "sandbox-violation" => some .sandboxViolation
  | _ => none

def onCommand (s : State) (command : Command) (data id : Value) (worker : WorkerId) : Ran :=
  match command with
  | .querydevice => emit s worker (queryDeviceForChild host s data id worker)
  | .invokeforeignaction => emit s worker (onInvokeForeignAction host s data id worker)
  | .devicelog => emit s worker (onDeviceLog host s data id worker)
  | .rediscommand => emit s worker (onRedisCommand host s data id worker)
  | .getjobinfo => emit s worker (onGetJobInfo s data id worker)
  | .peerChannelRequest => emit s worker (handleRequest host s data worker)
  | .peerMeteringRequest => emit s worker (handleMeteringRequest host s data id worker)
  | .peerSelfInvalidate =>
      if (s.workers worker).selfInvalidateThisTurn then returns s
      else
        let once := s.withWorker worker fun wm => { wm with selfInvalidateThisTurn := true }
        emit once worker (invalidateWorker once worker)
  | .sandboxViolation =>
      -- the handler is there from the start, and hears of one report more than it may
      let counted := s.withWorker worker fun wm => { wm with violationReports := wm.violationReports + 1 }
      if (s.workers worker).violationReports < MAX_VIOLATION_REPORTS then onSandboxViolation counted data
      else returns counted

def onChild (s : State) (message id : Value) (worker : WorkerId) (withinRate : Bool) : Ran :=
  let command := message.read "command"
  let data := message.read "data"
  if !withinRate && !rateExempt.any command.is then
    if command.is "peer-channel-request" then
      postMessage s worker
        (.deny none (orNull data "targetDeviceID")
          (.string "too many messages to the main thread (--moduleMessageRate)") (.string "RATE_LIMITED"))
    else postMessage s worker (.rateLimited id)
  else
    match commandOf command with
    | some command => onCommand host s command data id worker
    | none => returns s

def onWorkerMessage (s : State) (message : Value) (worker : WorkerId) (withinRate : Bool) : Ran :=
  match message.member "id" with
  | none => throws s
  | some id =>
      if id.isNull then returns s
      else if id.is "deviceonline" then emit s worker (onDeviceOnline host s (message.read "data") worker)
      else if id.is "jobprogress" then emit s worker (onJobProgress s (message.read "data") worker)
      else if (message.read "category").is "reply" then onReply host s message id worker
      else if (message.read "category").is "child" then onChild host s message id worker withinRate
      else returns s

end Messages

inductive EndCode where
  | MODULE_RELOADING | MODULE_UNLOADED | MODULE_RESTARTING
  deriving DecidableEq

def EndCode.name : EndCode → String
  | .MODULE_RELOADING => "MODULE_RELOADING"
  | .MODULE_UNLOADED => "MODULE_UNLOADED"
  | .MODULE_RESTARTING => "MODULE_RESTARTING"

/-! What else happens in the main thread. -/
section Events

/-- The queries that are left are for devices that are not there. -/
def drainQueries : State → Table (List (WorkerId × Value)) → Ran
  | s, [] => returns s
  | s, (deviceID, queries) :: rest =>
      (answerQueries
        (fun msgID => .queryReply msgID (runtimeErrorFor host "DEVICE_NOT_FOUND" deviceID).message .null) s
          queries).andThen fun s => drainQueries { s with notifyDeviceLoad := deleteKey s.notifyDeviceLoad deviceID } rest

def onAllModulesDiscovered (s : State) : Ran :=
  drainQueries host { s with allDevicesLoaded := true } (enumerated s.notifyDeviceLoad)

def onPurgeDevice (s : State) (worker : WorkerId) : Ran :=
  let purged := s.withWorker worker fun wm =>
    { wm with deviceList := wm.deviceList.filter fun device => s.deviceMap.lookup device.1 != some worker }
  invalidateWorker
    { purged with
      deviceMap := s.deviceMap.filter fun entry => entry.2 != worker
      notifyDeviceLoad := s.notifyDeviceLoad.map fun entry => (entry.1, entry.2.filter fun item => item.1 != worker) }
    worker

/-- A channel with a grant that no longer passes. -/
def closeRevoked (s : State) (caller : WorkerId) (callee : Option WorkerId) : Ran :=
  if (caller, callee) ∈ s.channelRegistry then
    let closed := { s with channelRegistry := s.channelRegistry.erase (caller, callee) }
    (postMessage closed caller (.invalidate callee)).andThen fun s =>
      match callee with
      | some worker => postMessage s worker (.invalidate (some caller))
      | none => throws s
  else returns s

/-- A service has answered, with the text of an error or a result. -/
def serviceAnswered (s : State) (call : Call) (errMsg : Option String) (result : Value) : Ran :=
  match call.service, errMsg with
  | .deviceLog, errMsg =>
      sendReply s call.worker
        (.serviceReply .deviceLog call.msgID ((errMsg.map Value.string).getD .null) .undefined)
  | .peerMetering, some errMsg =>
      sendReply s call.worker (.serviceReply .peerMetering call.msgID (.string errMsg) .null)
  | service, some errMsg => sendReply s call.worker (.serviceReply service call.msgID (.string errMsg) .undefined)
  | service, none => sendReply s call.worker (.serviceReply service call.msgID .null result)

end Events

inductive Event where
  | receive (worker : WorkerId) (message : Value) (withinRate : Bool)
  | auth (place : Nat) (err : Option (String × String))
  | metered (place : Nat)
  | expire (place : Nat)
  /-- Another part of the main thread sends a request. -/
  | send (worker : WorkerId) (completes : Option Failure → Value → Bool)
  | workerEnds (worker : WorkerId) (code : EndCode) (message : String)
  | load (worker : WorkerId) (hostModulePath : Option String)
  | served (place : Nat) (errMsg : Option String) (result : Value)
  | job (worker : WorkerId) (jobID : String) (runs : Bool)
  /-- The turn in which a worker has invalidated its channels is over. -/
  | turn (worker : WorkerId)
  | discovering
  | discovered
  | purge (worker : WorkerId)
  /-- A device whose composition does not verify is taken out. -/
  | discard (deviceID : String) (worker : WorkerId)
  | supervise (deviceID : String) (missing : Option (String × String))
  | revoke (caller : WorkerId) (callee : Option WorkerId)

def failureOf (err : String × String) : Failure := ⟨.string err.1, .string err.2⟩

def step (s : State) : Event → Ran
  | .receive worker message withinRate => onWorkerMessage host s message worker withinRate
  | .auth place err =>
      match s.asks[place]? with
      | none => returns s
      | some ask => authAnswered host { s with asks := s.asks.eraseIdx place } ask (err.map failureOf)
  | .metered place =>
      match s.metering[place]? with
      | none => returns s
      | some (hop, data) => sessionCallback { s with metering := s.metering.eraseIdx place } hop none data
  | .expire place =>
      match s.sessions[place]? with
      | none => returns s
      | some hop =>
          sessionCallback s hop (some ⟨.undefined, (runtimeError host "DEVICE_NOT_RESPONDING").message⟩) .null
  | .send worker completes => sendMessageToWorker host s worker .other (.client completes)
  | .workerEnds worker code message => endWith host s worker (failureOf (code.name, message))
  | .load worker hostModulePath =>
      returns (s.withWorker worker fun wm => { wm with hostModulePath := hostModulePath, loaded := true })
  | .served place errMsg result =>
      match s.calls[place]? with
      | none => returns s
      | some call => serviceAnswered { s with calls := s.calls.eraseIdx place } call errMsg result
  | .job worker jobID runs =>
      returns (s.withWorker worker fun wm => wm.setJob jobID runs)
  | .turn worker => returns (s.withWorker worker fun wm => { wm with selfInvalidateThisTurn := false })
  | .discovering => returns { s with allDevicesLoaded := false }
  | .discovered => onAllModulesDiscovered host s
  | .purge worker => onPurgeDevice s worker
  | .discard deviceID worker =>
      let cleared := s.withWorker worker fun wm => { wm with deviceList := deleteKey wm.deviceList deviceID }
      returns { cleared with deviceMap := deleteKey s.deviceMap deviceID }
  | .supervise deviceID missing =>
      returns { s with supervisor := Function.update s.supervisor deviceID (missing.map failureOf) }
  | .revoke caller callee => closeRevoked s caller callee

end Countinghouse.MainThread
