import Countinghouse.ToolRegistry

/-!
`handleToolsCall` of lib/mcp/gateway.js, with `createTaskForToolCall` behind it and
`doUserAuth` of lib/user-auth.js. The AuthProvider, the rate limiter, the action that is
invoked and the job queue answer as the environment says. Effects are listed in the order in
which they happen; a call without an answer has thrown.

The tools that the platform and its authors have for themselves are left to the environment.
-/

namespace Countinghouse.ToolsCall

open PlainObject ToolRegistry

structure Failure where
  code : Option String
  message : String
  deriving DecidableEq

/-- What an action returns as its output: its `JSON.stringify`, and the text that stands for it
where no schema is advertised. -/
structure Output where
  stringified : String
  plain : String
  deriving DecidableEq

inductive Effect where
  | authorize (deviceID serviceID actionName : Option String)
  | fetchSchema (deviceID : Option String) (path : String)
  | invoke (deviceID serviceID actionName : Option String) (input : String)
  | queue (name : String) (deviceID serviceID actionName : Option String) (input owner : String)
  | recordCall (apiKey tool : String)
  deriving DecidableEq

/-- A JSON-RPC error, the result of a call or the task made for it. -/
inductive Response where
  | error (code : Int) (message : String)
  | result (isError : Bool) (text : String) (errorCode : Option String) (structured : Bool)
  | task (taskId : String) (ttl : Option Nat)
  deriving DecidableEq

structure Outcome where
  effects : List Effect
  answer : Option (String × Response)
  deriving DecidableEq

/-- The parameters of a tools/call: `name` when it is a string, `task` with its `ttl` when
that is a number. -/
structure Request where
  id : String
  name : Option String
  arguments : String
  task : Option (Option Nat)

inductive AuthReply where
  | failed (message : String)
  | refused (err : Option Failure)
  | ok (isAdmin : Bool)

structure Session where
  appKey : Option String
  isAdmin : Bool

structure Env where
  specs : Table DeviceSpec
  workerThread : Bool
  authoringTools : Bool
  debug : Bool
  debugKey : Option String
  /-- The message of a CHError, by its code and arguments. -/
  errorText : String → List String → String
  authenticate : String → Option String → Option String → Option String → AuthReply
  /-- `limited`, or nothing when the limiter fails. -/
  rateLimit : String → Option Bool
  /-- Whether a schema pointer of a device leads to a schema of type object. -/
  objectSchema : String → String → Bool
  action : Triple → Except Failure Output
  addJob : Except String String
  checkBalance : Request → Option String → Outcome
  authoringTool : Request → Option String → Outcome

/-- What the code reads of `targets[name]`. -/
structure Ref where
  name : Option String
  deviceID : Option String
  serviceID : Option String
  actionName : Option String
  action : Option Action

/-- The `name` of an inherited member: that of a function, and none for `Object.prototype`. -/
def inheritedName (key : String) : Option String :=
  if key = "constructor" then some "Object" else if key = "__proto__" then none else some key

def lookupTarget (env : Env) (name : String) : Option Ref :=
  match get (buildToolTargets env.specs) name with
  | .undefined => none
  | .own target =>
      some ⟨some name, some target.deviceID, some target.serviceID, some target.actionName, some target.action⟩
  | .inherited => some ⟨inheritedName name, none, none, none, none⟩

section Calls

variable (env : Env) (req : Request) (appKey : Option String)

/-- `doUserAuth` -/
def userAuth (deviceID serviceID actionName : Option String) : Except String Session :=
  let unknown := env.errorText "SYSTEM_ERROR_UNKNOWN_USER"
  if env.debug then
    match env.debugKey with
    | none => .ok ⟨appKey, true⟩
    | some key => if appKey = some key then .ok ⟨appKey, true⟩ else .error (unknown [])
  else
    match appKey with
    | none => .error (unknown [])
    | some key =>
        match env.authenticate key deviceID serviceID actionName with
        | .failed message => .error (env.errorText "SYSTEM_ERROR_USERDB_NA" [message])
        | .refused err => .error ((err.map Failure.message).getD (unknown [key]))
        | .ok isAdmin => .ok ⟨some key, isAdmin⟩

def answered (effects : List Effect) (response : Response) : Outcome := ⟨effects, some (req.id, response)⟩

/-- `moduleToolResult` -/
def moduleToolResult (output : Output) (outputSchema : Bool) : Response :=
  .result false (if outputSchema then output.stringified else output.plain) none outputSchema

def encodeLegacyTool (triple : Triple) : String :=
  triple.deviceID ++ ":::" ++ triple.serviceID ++ ":::" ++ triple.actionName

/-- `invokeDeviceAction` and `respond`: a success is recorded when there is a key. -/
def invokeAction (triple : Triple) (outputSchema : Bool) : List Effect × Response :=
  let invoked := Effect.invoke (some triple.deviceID) (some triple.serviceID) (some triple.actionName) req.arguments
  match env.action triple with
  | .error failure => ([invoked], .result true failure.message failure.code false)
  | .ok output =>
      (invoked :: (appKey.map fun key => Effect.recordCall key (encodeLegacyTool triple)).toList,
        moduleToolResult output outputSchema)

/-- `resolveOutputSchema`: the device is authorized once more for it. -/
def resolveOutputSchema (deviceID : String) (action : Action) : List Effect × Bool :=
  match action.output with
  | none => ([], false)
  | some path =>
      let asked := Effect.authorize (some deviceID) none none
      match userAuth env appKey (some deviceID) none none with
      | .error _ => ([asked], false)
      | .ok _ => ([asked, .fetchSchema (some deviceID) path], env.objectSchema deviceID path)

/-- The call itself. Without an action `schemaPathFor` reads a property of undefined. -/
def callTarget (ref : Ref) : Outcome :=
  let asked := Effect.authorize ref.deviceID ref.serviceID ref.actionName
  match userAuth env appKey ref.deviceID ref.serviceID ref.actionName with
  | .error message => answered req [asked] (.error (-32603) message)
  | .ok _ =>
      match ref.deviceID, ref.serviceID, ref.actionName, ref.action with
      | some deviceID, some serviceID, some actionName, some action =>
          let schema := resolveOutputSchema env appKey deviceID action
          let call := invokeAction env req appKey ⟨deviceID, serviceID, actionName⟩ schema.2
          answered req (asked :: (schema.1 ++ call.1)) call.2
      | _, _, _, _ => ⟨[asked], none⟩

/-- `doCreateTaskForToolCall`, with the checks of `addJob`. -/
def doCreateTask (ref : Ref) (session : Session) (ttl : Option Nat) : List Effect × Response :=
  match session.appKey, ref.name with
  | none, _ => ([], .error (-32603) (env.errorText "SYSTEM_ERROR_UNKNOWN_USER" []))
  | some _, none => ([], .error (-32603) (env.errorText "ADD_JOB_ERROR" ["job must have a name"]))
  | some owner, some name =>
      ([.queue name ref.deviceID ref.serviceID ref.actionName req.arguments owner],
        match env.addJob with
        | .error message => .error (-32603) (env.errorText "ADD_JOB_ERROR" [message])
        | .ok id => .task id ttl)

/-- `createTaskForToolCall` -/
def createTask (ref : Ref) (ttl : Option Nat) : Outcome :=
  if env.workerThread then
    let asked := Effect.authorize ref.deviceID ref.serviceID ref.actionName
    match userAuth env appKey ref.deviceID ref.serviceID ref.actionName with
    | .error message => answered req [asked] (.error (-32603) message)
    | .ok session =>
        if appKey.bind env.rateLimit = some true then
          answered req [asked] (.result true "rate limit exceeded" none false)
        else
          let task := doCreateTask env req ref session ttl
          answered req (asked :: task.1) task.2
  else
    answered req [] (.error (-32602)
      "task-augmented tools/call requires the server to be running in multi-thread mode (--workerThread)")

def unknownTool (name : String) : Outcome := answered req [] (.error (-32602) ("unknown tool: " ++ name))

def handleToolsCall : Outcome :=
  match req.name with
  | none => answered req [] (.error (-32602) "params.name must be a non-empty string")
  | some name =>
      if name = "" then answered req [] (.error (-32602) "params.name must be a non-empty string")
      else if name ∈ PLATFORM_TOOL_NAMES then env.checkBalance req appKey
      else if name ∈ AUTHORING_TOOL_NAMES ∧ env.authoringTools = true then env.authoringTool req appKey
      else
        match lookupTarget env name with
        | none => unknownTool req name
        | some ref =>
            match req.task with
            | some ttl => createTask env req appKey ref ttl
            | none => callTarget env req appKey ref

end Calls

/-! The law of dispatch. -/
section Dispatch

variable (env : Env) (req : Request) (appKey : Option String)

/-- The effect is for that target and nothing else. -/
def Effect.about (target : Target) : Effect → Prop
  | .authorize deviceID serviceID actionName =>
      deviceID = some target.deviceID ∧
        (serviceID = some target.serviceID ∧ actionName = some target.actionName ∨ serviceID = none ∧ actionName = none)
  | .fetchSchema deviceID path => deviceID = some target.deviceID ∧ target.action.output = some path
  | .invoke deviceID serviceID actionName _ =>
      deviceID = some target.deviceID ∧ serviceID = some target.serviceID ∧ actionName = some target.actionName
  | .queue _ deviceID serviceID actionName _ _ =>
      deviceID = some target.deviceID ∧ serviceID = some target.serviceID ∧ actionName = some target.actionName
  | .recordCall _ tool => tool = encodeLegacyTool target.toTriple

def Effect.runs : Effect → Bool
  | .invoke .. => true
  | .queue .. => true
  | _ => false

/-- `userAuth` for a target. -/
def authOf (target : Target) : Except String Session :=
  userAuth env appKey (some target.deviceID) (some target.serviceID) (some target.actionName)

def Effect.asks (target : Target) : Effect :=
  .authorize (some target.deviceID) (some target.serviceID) (some target.actionName)

/-- What runs a target, as the request wants it. -/
def Runs (target : Target) (session : Session)
    (effects : List Effect) : Prop :=
  (req.task = none → effects.filter Effect.runs =
    [.invoke (some target.deviceID) (some target.serviceID) (some target.actionName) req.arguments]) ∧
  (req.task ≠ none → env.workerThread = true → appKey.bind env.rateLimit ≠ some true →
    ∀ owner name, session.appKey = some owner → req.name = some name → effects.filter Effect.runs =
      [.queue name (some target.deviceID) (some target.serviceID) (some target.actionName) req.arguments owner])

/-- The target is asked for first and run once when it is granted: at once or, for a task
that the server can make, from the queue. -/
structure DispatchedTo (target : Target) (outcome : Outcome) : Prop where
  about : ∀ effect ∈ outcome.effects, effect.about target
  answers : outcome.answer ≠ none
  refused : ∀ message, authOf env appKey target = .error message → ∀ effect ∈ outcome.effects, effect.runs = false
  runs : ∀ session, authOf env appKey target = .ok session → Runs env req appKey target session outcome.effects

/-- A registered name is dispatched to its target, any other is unknown. -/
def Dispatches (name : String) : Prop :=
  match (buildToolTargets env.specs).lookup name with
  | some target => DispatchedTo env req appKey target (handleToolsCall env req appKey)
  | none => handleToolsCall env req appKey = unknownTool req name

variable {env req appKey}

theorem schema_about (target : Target) :
    ∀ effect ∈ (resolveOutputSchema env appKey target.deviceID target.action).1,
      effect.about target ∧ effect.runs = false := by
  intro effect member
  unfold resolveOutputSchema at member
  split at member
  · cases member
  · rename_i path isPath
    simp only at member
    split at member
    · rw [List.mem_singleton.mp member]
      exact ⟨⟨rfl, Or.inr ⟨rfl, rfl⟩⟩, rfl⟩
    · rcases List.mem_pair.mp member with rfl | rfl
      · exact ⟨⟨rfl, Or.inr ⟨rfl, rfl⟩⟩, rfl⟩
      · exact ⟨⟨rfl, isPath⟩, rfl⟩

theorem invoked_about (env : Env) (req : Request) (appKey : Option String) (target : Target) (outputSchema : Bool) :
    (∀ effect ∈ (invokeAction env req appKey target.toTriple outputSchema).1, effect.about target) ∧
      (invokeAction env req appKey target.toTriple outputSchema).1.filter Effect.runs =
        [.invoke (some target.deviceID) (some target.serviceID) (some target.actionName) req.arguments] := by
  unfold invokeAction
  cases env.action target.toTriple with
  | error failure =>
      constructor
      · intro effect member
        rw [List.mem_singleton.mp member]
        exact ⟨rfl, rfl, rfl⟩
      · rfl
  | ok output =>
      cases appKey with
      | none =>
          constructor
          · intro effect member
            rw [List.mem_singleton.mp member]
            exact ⟨rfl, rfl, rfl⟩
          · rfl
      | some key =>
          constructor
          · intro effect member
            rcases List.mem_pair.mp member with rfl | rfl
            · exact ⟨rfl, rfl, rfl⟩
            · rfl
          · rfl

/-- The reference to a registered target. -/
def refTo (name : String) (target : Target) : Ref :=
  ⟨some name, some target.deviceID, some target.serviceID, some target.actionName, some target.action⟩

theorem asked_dispatched {target : Target} (more : List Effect) (response : Response)
    (about : ∀ effect ∈ more, effect.about target)
    (refused : ∀ message, authOf env appKey target = .error message → more = [])
    (runs : ∀ session, authOf env appKey target = .ok session → Runs env req appKey target session more) :
    DispatchedTo env req appKey target (answered req (Effect.asks target :: more) response) := by
  constructor
  · intro effect member
    rcases List.mem_cons.mp member with rfl | later
    · exact ⟨rfl, Or.inl ⟨rfl, rfl⟩⟩
    · exact about effect later
  · simp [answered]
  · intro message isRefused effect member
    simp only [answered, refused message isRefused, List.mem_singleton] at member
    rw [member]
    rfl
  · exact runs

theorem call_dispatched (name : String) (target : Target) (direct : req.task = none) :
    DispatchedTo env req appKey target (callTarget env req appKey (refTo name target)) := by
  cases isAuth : authOf env appKey target with
  | error message =>
      have called : callTarget env req appKey (refTo name target) =
          answered req [Effect.asks target] (.error (-32603) message) := by
        simp only [authOf] at isAuth
        simp [callTarget, refTo, isAuth, Effect.asks]
      rw [called]
      apply asked_dispatched
      · intro effect member
        cases member
      · exact fun _ _ => rfl
      · intro session granted
        rw [isAuth] at granted
        cases granted
  | ok session =>
      obtain ⟨about, only⟩ := invoked_about env req appKey target
        (resolveOutputSchema env appKey target.deviceID target.action).2
      have called : callTarget env req appKey (refTo name target) =
          answered req
            (Effect.asks target :: ((resolveOutputSchema env appKey target.deviceID target.action).1 ++
              (invokeAction env req appKey target.toTriple
                (resolveOutputSchema env appKey target.deviceID target.action).2).1))
            (invokeAction env req appKey target.toTriple
              (resolveOutputSchema env appKey target.deviceID target.action).2).2 := by
        simp only [authOf] at isAuth
        simp [callTarget, refTo, isAuth, Effect.asks]
      have quiet : (resolveOutputSchema env appKey target.deviceID target.action).1.filter Effect.runs = [] := by
        rw [List.filter_eq_nil_iff]
        intro effect member
        simp [(schema_about target effect member).2]
      rw [called]
      apply asked_dispatched
      · intro effect member
        rcases List.mem_append.mp member with fetched | invoked
        · exact (schema_about target effect fetched).1
        · exact about effect invoked
      · intro message refused
        rw [isAuth] at refused
        cases refused
      · intro _ _
        refine ⟨fun _ => ?_, fun task => absurd direct task⟩
        rw [List.filter_append, quiet, only]
        rfl

/-- What a made task queues: nothing when nobody owns it. -/
theorem queued_about (name : String) (target : Target) (session : Session) (ttl : Option Nat) :
    (doCreateTask env req (refTo name target) session ttl).1 =
      (session.appKey.map fun owner => Effect.queue name (some target.deviceID) (some target.serviceID)
        (some target.actionName) req.arguments owner).toList := by
  cases owned : session.appKey with
  | none => simp [doCreateTask, owned]
  | some owner => simp [doCreateTask, refTo, owned]

theorem task_dispatched (name : String) (target : Target) (ttl : Option Nat) (named : req.name = some name)
    (task : req.task = some ttl) :
    DispatchedTo env req appKey target (createTask env req appKey (refTo name target) ttl) := by
  have indirect : req.task ≠ none := by simp [task]
  by_cases threads : env.workerThread = true
  · cases isAuth : authOf env appKey target with
    | error message =>
        have created : createTask env req appKey (refTo name target) ttl =
            answered req [Effect.asks target] (.error (-32603) message) := by
          simp only [authOf] at isAuth
          simp [createTask, threads, refTo, isAuth, Effect.asks]
        rw [created]
        apply asked_dispatched
        · intro effect member
          cases member
        · exact fun _ _ => rfl
        · intro session granted
          rw [isAuth] at granted
          cases granted
    | ok session =>
        by_cases limited : appKey.bind env.rateLimit = some true
        · have created : createTask env req appKey (refTo name target) ttl =
              answered req [Effect.asks target] (.result true "rate limit exceeded" none false) := by
            simp only [authOf] at isAuth
            simp [createTask, threads, refTo, isAuth, limited, Effect.asks]
          rw [created]
          apply asked_dispatched
          · intro effect member
            cases member
          · exact fun _ _ => rfl
          · intro _ _
            exact ⟨fun direct => absurd direct indirect, fun _ _ room => absurd limited room⟩
        · have created : createTask env req appKey (refTo name target) ttl =
              answered req (Effect.asks target :: (doCreateTask env req (refTo name target) session ttl).1)
                (doCreateTask env req (refTo name target) session ttl).2 := by
            simp only [authOf] at isAuth
            simp [createTask, threads, refTo, isAuth, limited, Effect.asks]
          rw [created, queued_about]
          apply asked_dispatched
          · intro effect member
            cases owned : session.appKey with
            | none => simp [owned] at member
            | some owner =>
                simp only [owned, Option.map_some, Option.toList_some, List.mem_singleton] at member
                rw [member]
                exact ⟨rfl, rfl, rfl⟩
          · intro message refused
            rw [isAuth] at refused
            cases refused
          · intro other granted
            rw [isAuth] at granted
            cases granted
            refine ⟨fun direct => absurd direct indirect, ?_⟩
            intro _ _ _ owner asked isOwner isName
            rw [named] at isName
            cases isName
            simp [isOwner, Effect.runs]
  · have refused : createTask env req appKey (refTo name target) ttl =
        answered req [] (.error (-32602)
          "task-augmented tools/call requires the server to be running in multi-thread mode (--workerThread)") := by
      simp [createTask, threads]
    rw [refused]
    constructor
    · intro effect member
      cases member
    · simp [answered]
    · intro _ _ effect member
      cases member
    · intro _ _
      exact ⟨fun direct => absurd direct indirect, fun _ on => absurd on threads⟩

/-- Something that is asked for was not refused as unknown. -/
theorem asked_not_unknown (name : String) (effect : Effect) (more : List Effect) (answer : Option (String × Response)) :
    (⟨effect :: more, answer⟩ : Outcome) ≠ unknownTool req name := by
  intro same
  have := congrArg Outcome.effects same
  simp [unknownTool, answered] at this

/-- An inherited member is asked for like a target, or refused for another reason than being
unknown. -/
theorem inherited_called (name : String) (ref : Ref) (noDevice : ref.deviceID = none) :
    callTarget env req appKey ref ≠ unknownTool req name := by
  unfold callTarget
  simp only [noDevice]
  split
  · exact asked_not_unknown _ _ _ _
  · exact asked_not_unknown _ _ _ _

theorem inherited_queued (name : String) (ref : Ref) (ttl : Option Nat) :
    createTask env req appKey ref ttl ≠ unknownTool req name := by
  unfold createTask
  simp only
  split
  · split
    · exact asked_not_unknown _ _ _ _
    · split
      · exact asked_not_unknown _ _ _ _
      · exact asked_not_unknown _ _ _ _
  · intro same
    have := congrArg Outcome.answer same
    simp only [answered, unknownTool, Option.some.injEq, Prod.mk.injEq, Response.error.injEq, true_and] at this
    have heads := congrArg (fun text => text.toList.head?) this
    simp [String.toList_append] at heads

/-- A name that no platform or authoring tool has is looked up. -/
theorem ordinary_looked_up (env : Env) (appKey : Option String) {name : String} (named : req.name = some name) (nonempty : name ≠ "")
    (ordinary : name ∉ reservedNames) :
    handleToolsCall env req appKey =
      match lookupTarget env name with
      | none => unknownTool req name
      | some ref =>
          match req.task with
          | some ttl => createTask env req appKey ref ttl
          | none => callTarget env req appKey ref := by
  simp only [reservedNames, List.mem_append, not_or] at ordinary
  simp [handleToolsCall, named, nonempty, ordinary.1, ordinary.2]

/-- Every name is dispatched as it should be, except the names of what every object
inherits. -/
theorem dispatches_iff_not_inherited (env : Env) (req : Request) (appKey : Option String) {name : String}
    (named : req.name = some name) (nonempty : name ≠ "") (ordinary : name ∉ reservedNames) :
    Dispatches env req appKey name ↔ name ∉ inheritedNames := by
  have handled := ordinary_looked_up env appKey named nonempty ordinary
  unfold Dispatches
  cases registered : (buildToolTargets env.specs).lookup name with
  | some target =>
      have found : lookupTarget env name = some (refTo name target) := by
        simp [lookupTarget, get_own registered, refTo]
      rw [handled, found]
      refine ⟨fun _ => registered_not_inherited registered, fun _ => ?_⟩
      cases task : req.task with
      | none => simpa only [task] using call_dispatched name target task
      | some ttl => simpa only [task] using task_dispatched name target ttl named task
  | none =>
      by_cases inherited : name ∈ inheritedNames
      · have found : lookupTarget env name = some ⟨inheritedName name, none, none, none, none⟩ := by
          simp [lookupTarget, get_inherited registered inherited]
        rw [handled, found]
        refine ⟨fun same => ?_, fun apart => absurd inherited apart⟩
        cases task : req.task with
        | none => exact absurd (by simpa only [task] using same) (inherited_called name _ rfl)
        | some ttl => exact absurd (by simpa only [task] using same) (inherited_queued name _ ttl)
      · have found : lookupTarget env name = none := by
          simp [lookupTarget, get_undefined registered inherited]
        rw [handled, found]
        exact ⟨fun _ => inherited, fun _ => rfl⟩

/-- A server without modules that knows one key. -/
def bare : Env where
  specs := []
  workerThread := true
  authoringTools := false
  debug := false
  debugKey := none
  errorText := fun code _ => code
  authenticate := fun key _ _ _ => if key = "key" then .ok false else .refused none
  rateLimit := fun _ => some false
  objectSchema := fun _ _ => false
  action := fun _ => .error ⟨none, "no such action"⟩
  addJob := .ok "1"
  checkBalance := fun req _ => answered req [] (.result false "0" none false)
  authoringTool := fun req _ => answered req [] (.error (-32602) "unknown tool")

/-- A call of `toString` is authorized for no device and throws; as a task it is queued. -/
theorem inherited_name_is_dispatched :
    handleToolsCall bare ⟨"1", some "toString", "", none⟩ (some "key") = ⟨[.authorize none none none], none⟩ ∧
      handleToolsCall bare ⟨"1", some "toString", "", some none⟩ (some "key") =
        ⟨[.authorize none none none, .queue "toString" none none none "" "key"], some ("1", .task "1" none)⟩ ∧
      unknownTool ⟨"1", some "toString", "", none⟩ "toString" =
        ⟨[], some ("1", .error (-32602) "unknown tool: toString")⟩ := by
  decide

/-- The same server with a module that has one action. -/
def scanning : Env := { bare with specs := [("a1", scanSpec "repo-scan")] }

def scanTarget : Target := ⟨scanRun "a1", "Scans a repository.", ⟨"run", some "Scans a repository.", none⟩⟩

theorem scan_registered : (buildToolTargets scanning.specs).lookup "repo_scan_scan_run" = some scanTarget := by
  decide +kernel

theorem missing_name_is_unknown :
    handleToolsCall bare ⟨"1", some "scan", "", none⟩ (some "key") =
        unknownTool ⟨"1", some "scan", "", none⟩ "scan" ∧
      DispatchedTo scanning ⟨"1", some "repo_scan_scan_run", "", none⟩ (some "key") scanTarget
        (handleToolsCall scanning ⟨"1", some "repo_scan_scan_run", "", none⟩ (some "key")) := by
  constructor
  · exact (dispatches_iff_not_inherited bare ⟨"1", some "scan", "", none⟩ (some "key") rfl (by decide) (by decide)).mpr
      (by decide)
  · have dispatches := (dispatches_iff_not_inherited scanning ⟨"1", some "repo_scan_scan_run", "", none⟩ (some "key") rfl
      (by decide) (by decide)).mpr (by decide)
    unfold Dispatches at dispatches
    rwa [scan_registered] at dispatches

end Dispatch

end Countinghouse.ToolsCall
