import Countinghouse.MainThread

/-!
One hop, `ServiceClient.prototype.invoke` for a device of another worker, on each of its two
paths: through sendInvokeActionMessageToWorker of the main thread, and over a direct peer
channel (invokeActionViaPeerChannel, onPeerChannelDeny, flushPendingPeerInvokes,
onPeerChannelOpen, `_dispatchInvoke` and `_handleReply`). What the callback gets is worked
out boundary by boundary, from the same scene for both paths.

A value stands for what structured clone makes of it, so that cloning once or twice is the
same. A step without a result is one that throws, or whose message is not posted; a callback
that is then called at all is called by a timer. The keys of the catalogue are the same in
every locale.
-/

namespace Countinghouse.HopPaths

open PlainObject MainThread

variable (host : Host)

/-! Errors. -/
section Errors

/-- An error object: `typed` for a DeviceError or a CHError. -/
structure HopError where
  typed : Bool
  code : Value
  message : Value

def newError (message : Value) : Option HopError :=
  match message with
  | .undefined => some ⟨false, .undefined, .string ""⟩
  | message => message.text.map fun text => ⟨false, .undefined, .string text⟩

def deviceError (code : Value) : Option HopError :=
  (getErrorMessage host code).map fun message => ⟨true, code, message⟩

def deviceErrorFor (code detail : String) : HopError :=
  ⟨true, .string code, .string (match get host.errorInfo code with
    | .own message => message ++ ": " ++ detail
    | .inherited => (inheritedMember code).shown ++ ": " ++ detail
    | .undefined => code)⟩

/-- `RUNTIME_CODES.has(code)` -/
def isRuntimeCode (code : String) : Bool := (host.errorInfo.lookup code).isSome

def hopError (err : HopError) : Option HopError :=
  match err.code with
  | .string code =>
      if isRuntimeCode host code then if err.typed then some err else deviceError host (.string code)
      else newError err.message
  | code => if code.isNull && !err.typed then some err else newError err.message

/-- `new DeviceError(err.code != null ? err.code : err.message)` -/
def rewrapped (err : HopError) : Option HopError :=
  deviceError host (if err.code.isNull then err.message else err.code)

def orNull (value : Value) : Value :=
  match value with
  | .undefined | .null => .null
  | .string text => if text = "" then .null else value
  | .scalar text => if text ∈ ["0", "false", "NaN"] then .null else value
  | .object .. => value

end Errors

/-! Replies that are posted between threads. -/
section Replies

structure Reply where
  errMsg : Value
  errCode : Value
  data : Value
  platformMetering : Value

def Reply.posted (reply : Reply) : Option Reply :=
  if reply.errMsg.clones && reply.errCode.clones && reply.data.clones && reply.platformMetering.clones then some reply
  else none

/-- The arguments of a callback. -/
structure Outcome where
  error : Option HopError
  data : Value
  platformMetering : Value

/-- What the three receivers make of a reply: onWorkerMessage, the `invoke-action-reply` of lib/sandbox.js and
`_handleReply` of a channel. -/
def Reply.received (reply : Reply) : Option Outcome :=
  if reply.errMsg.isNull then some ⟨none, reply.data, reply.platformMetering⟩
  else
    (newError reply.errMsg).map fun err =>
      ⟨some { err with code := if reply.errCode.isNull then .undefined else reply.errCode }, reply.data, .undefined⟩

/-- The callback that `invoke` puts around its own. -/
def answer (outcome : Outcome) : Option Outcome :=
  match outcome.error with
  | none => some outcome
  | some err => (hopError host err).map fun err => { outcome with error := some err }

end Replies

/-! The scene of a hop. -/
section Scene

abbrev Key := Option String

/-- A call of `invoke`: the identities its client was made with, and `opts`. -/
structure Invoke where
  appKey : Key
  clientBillingKey : Key
  optsBillingKey : Key
  serviceID : String
  actionName : String

/-- The `billingKey` that is sent, with the default of the constructor. -/
def Invoke.billingKey (hop : Invoke) : Key := hop.optsBillingKey.or (hop.clientBillingKey.or hop.appKey)

/-- An error of userAuth or of missingDeviceError, made by CHError. -/
structure Refusal where
  code : String
  message : String

inductive Target where
  | unknown
  | away (missing : Refusal)
  | hosted

/-- What an action hands to its callback; a function is no value that can be posted. -/
inductive Output where
  | value (value : Value)
  | function

inductive Report where
  | done (output : Output)
  | failed (err : Failure) (fault : Output)

structure Scene where
  target : Target
  userAuth : Key → Option Refusal
  /-- The open channel to the target's worker: the identity it was opened under. -/
  channel : Option Key
  /-- The device is one that the channel was granted for. -/
  granted : Bool
  /-- The identity of a request for the device that is on its way. -/
  asked : Option Key
  report : Report
  recordCall : Except String Value

/-- `peerChannels[peerDeviceWorkerMap[deviceID]]` is open. -/
def Scene.live (scene : Scene) : Bool := scene.granted && scene.channel.isSome

def Scene.asker (scene : Scene) (hop : Invoke) : Key := scene.asked.getD hop.appKey

/-- The `appKey` that the callee holds for the channel of a hop. -/
def Scene.opener (scene : Scene) (hop : Invoke) : Key := scene.channel.getD (scene.asker hop)

end Scene

/-! Through the main thread. -/
section MainThreadRouted

/-- The reply of the callee's worker: `invoke-action` of lib/sandbox.js. -/
def sendMessageToParent (report : Report) : Option Reply :=
  match report with
  | .done .function | .failed _ .function =>
      Reply.posted ⟨.string "Invoke fail", .null, .object (some "[object Object]") true
        [("fault", .string "Incorrect return data type"),
          ("reason", .string "Return function type to caller is not allowed")], .undefined⟩
  | .done (.value data) => Reply.posted ⟨.null, .null, data, .undefined⟩
  | .failed err (.value data) => Reply.posted ⟨err.message, orNull err.code, data, .undefined⟩

def refusalReply (refusal : Refusal) : Reply :=
  ⟨.string refusal.message, .string refusal.code, .null, .undefined⟩

def localCB (outcome : Outcome) : Option Reply :=
  match outcome.error with
  | some err =>
      Reply.posted ⟨err.message, if err.code.isNull then .null else err.code, outcome.data, .undefined⟩
  | none => Reply.posted ⟨.null, .undefined, outcome.data, outcome.platformMetering⟩

def unresolvedIdentity (hop : Invoke) : HopError :=
  deviceErrorFor host "HOP_IDENTITY_UNRESOLVED" (hop.serviceID ++ "/" ++ hop.actionName)

def meteringResult (recorded : Except String Value) : Value :=
  match recorded with
  | .ok result => result
  | .error _ => .null

/-- The callback of sendInvokeActionMessage. -/
def hopReplied (scene : Scene) (hop : Invoke) (outcome : Outcome) : Option Reply :=
  match outcome.error with
  | some err => (rewrapped host err).bind fun err => localCB ⟨some err, outcome.data, .undefined⟩
  | none =>
      if !host.ci then localCB ⟨none, outcome.data, .undefined⟩
      else
        match hop.billingKey.or hop.appKey with
        | none => localCB ⟨some (unresolvedIdentity host hop), .null, .undefined⟩
        | some _ => localCB ⟨none, outcome.data, meteringResult scene.recordCall⟩

def sendInvokeActionMessageToWorker (scene : Scene) (hop : Invoke) : Option Reply :=
  match scene.target with
  | .unknown => Reply.posted ⟨.string "device not found in map", .undefined, .null, .undefined⟩
  | .away missing => (refusalReply ((scene.userAuth hop.appKey).getD missing)).posted
  | .hosted =>
      match scene.userAuth hop.appKey with
      | some refusal => (refusalReply refusal).posted
      | none => do
          let reply ← sendMessageToParent scene.report
          let outcome ← reply.received
          hopReplied host scene hop outcome

end MainThreadRouted

/-! Over a peer channel. -/
section PeerRouted

/-- handleRequest of the broker: the error of a deny, or none for a grant. -/
def handleRequest (scene : Scene) (key : Key) : Option Refusal :=
  match scene.target with
  | .unknown => some ⟨"DEVICE_NOT_FOUND", (host.errorInfo.lookup "DEVICE_NOT_FOUND").getD "DEVICE_NOT_FOUND"⟩
  | .away missing => some ((scene.userAuth key).getD missing)
  | .hosted => scene.userAuth key

def peerReply (err : Option Failure) (output : Output) (platformMetering : Value) : Option Reply :=
  match output with
  | .function => none
  | .value data =>
      match err with
      | some err => Reply.posted ⟨err.message, orNull err.code, data, platformMetering⟩
      | none => Reply.posted ⟨.null, .null, data, platformMetering⟩

/-- The meteringResult of handleMeteringRequest, with which finishMeteredHop replies. -/
def meteredHop (scene : Scene) : Value := if !host.ci then .null else meteringResult scene.recordCall

def onInvoke (scene : Scene) (hop : Invoke) (appKey : Key) : Option Reply :=
  match scene.report with
  | .failed err fault => peerReply (some err) fault .undefined
  | .done output =>
      match hop.billingKey.or appKey with
      | none =>
          let err := unresolvedIdentity host hop
          peerReply (some ⟨err.code, err.message⟩) (.value .null) .null
      | some _ => peerReply none output (meteredHop host scene)

/-- The callback that invokeActionViaPeerChannel and flushPendingPeerInvokes give to the channel. -/
def channelReplied (outcome : Outcome) : Option Outcome :=
  match outcome.error with
  | some err => (rewrapped host err).map fun err => ⟨some err, outcome.data, .undefined⟩
  | none => some outcome

def invokeOverChannel (scene : Scene) (hop : Invoke) : Option Outcome := do
  let reply ← onInvoke host scene hop (scene.opener hop)
  let outcome ← reply.received
  channelReplied host outcome

/-- `onPeerChannelDeny` -/
def denied (refusal : Refusal) : Outcome :=
  ⟨some (deviceErrorFor host refusal.code refusal.message), .undefined, .undefined⟩

def invokeActionViaPeerChannel (scene : Scene) (hop : Invoke) : Option Outcome :=
  if scene.live then invokeOverChannel host scene hop
  else
    match handleRequest host scene (scene.asker hop) with
    | some refusal => some (denied host refusal)
    | none => invokeOverChannel host scene hop

end PeerRouted

/-! What a composing module can tell of an answer, and when the paths can be compared. -/
section Seen

/-- The code of the error if there is one, the data and the metering. -/
def Outcome.seen (outcome : Outcome) : Option Value × Value × Value :=
  (outcome.error.map HopError.code, outcome.data, outcome.platformMetering)

inductive Verdict where
  | unknown
  | refused (refusal : Refusal)
  | served

def Scene.verdict (scene : Scene) (key : Key) : Verdict :=
  match scene.target with
  | .unknown => .unknown
  | .away missing => .refused ((scene.userAuth key).getD missing)
  | .hosted =>
      match scene.userAuth key with
      | some refusal => .refused refusal
      | none => .served

def reportedCode (err : Failure) : Value :=
  if (orNull err.code).isNull then err.message else orNull err.code

/-- Data that can be posted, no function in its place, and no error without a message or under the name of a method that
the catalogue inherits. -/
def Report.plain : Report → Prop
  | .done (.value data) => data.clones = true
  | .failed err (.value _) =>
      err.message.isNull = false ∧
        ∀ key, (reportedCode err).text = some key → key ∈ inheritedNames → key = "__proto__"
  | .done .function | .failed _ .function => False

end Seen

/-! Errors on their way. -/
section Travel

variable {host}

end Travel

/-! The branches of a hop on each path. -/
section Branches

variable {host} {scene : Scene} {hop : Invoke}

end Branches

/-! Both paths. -/
section Paths

end Paths

end Countinghouse.HopPaths
