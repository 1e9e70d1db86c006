import Countinghouse.JsonValues
import Countinghouse.TaskFailures
import Countinghouse.ToolRegistry

/-!
lib/mcp/gateway.js, as far as it makes a response of a message, and the POST route of
lib/routes/mcp.js. What the rest of the server answers is a parameter, with one answer for each
question: every handler calls back once. What a call of a tool does besides is in ToolsCall.

A response is the object that `res.json` writes, so a member that is undefined is not there.
-/

namespace Countinghouse.GatewayMessages

open RedisMetering JsonValues

def PROTOCOL_VERSION : String := "2026-07-28"
def SERVER_NAME : String := "countinghouse"
def SERVER_VERSION : String := "7.1.2"

def JSONRPC_PARSE_ERROR : ℚ := -32700
def JSONRPC_INVALID_REQUEST : ℚ := -32600
def JSONRPC_METHOD_NOT_FOUND : ℚ := -32601
def JSONRPC_INVALID_PARAMS : ℚ := -32602
def JSONRPC_INTERNAL_ERROR : ℚ := -32603

def errorResponse (id : Option Json) (code : ℚ) (message : String) : Json :=
  .object [("jsonrpc", .string "2.0"), ("id", id.getD .null),
    ("error", .object [("code", .number code), ("message", .string message)])]

/-- A member, unless its value is undefined. -/
def given (name : String) (value : Option Json) : Fields := (value.map (name, ·)).toList

def resultResponse (id : Option Json) (result : Json) : Json :=
  .object (("jsonrpc", .string "2.0") :: (given "id" id ++ [("result", result)]))

/-- An error, as it comes out of the rest of the server. -/
structure Failure where
  code : Option Json
  message : String

structure Identity where
  appKey : Option String
  isAdmin : Bool
  userName : Option String

/-- What is read of a `{job, state}` record. The output is that of the value returned. -/
structure Job where
  id : String
  state : String
  timestamp : ℚ
  processedOn : Option ℚ
  finishedOn : Option ℚ
  timeout : Option Json
  failedReason : Option String
  output : Option Json
  outputSchemaHash : Option String

inductive Loading where
  | late
  | failed (err : Failure)
  | found (toolNames : List String) (discoveryComplete : Bool)

/-- What the rest of the server answers while one message is handled. -/
structure Outside where
  workerThread : Bool
  authoringTools : Bool
  /-- `JSON.stringify` and `new Date(time).toISOString()` -/
  stringify : Json → String
  isoDate : ℚ → String
  now : String
  AUTHORING_TOOLS : List Json
  callerIdentity : Except String Identity
  limited : Bool
  rateLimitError : Failure
  toolList : Except String (List Json)
  /-- `result.balance`, of a balance that is known. -/
  balance : Except Failure (Option Json)
  validatePlan : Json → Json
  validateModule : String → Except Failure Json
  loadModule : Json → Loading
  /-- Whether there is a target of that name. -/
  target : String → Bool
  callAllowed : Except String Unit
  callSchema : Option Json
  /-- `data.output`, of an action that has ended. -/
  invoked : Except Failure (Option Json)
  addJob : Except String String
  getJob : Except String Job
  listJobs : Except String (List Job)
  removeJob : Except String Unit
  advertised : Option Json
  outputSchemaHash : Json → String

def textOf : Json → Option String
  | .string text => some text
  | _ => none

/-- A non-empty string. -/
def nonEmpty (value : Json) : Option String := (textOf value).filter (· ≠ "")

/-- `value || {}` -/
def orEmpty (value : Json) : Json := if truthy value then value else .object []

def reqId (req : Json) : Option Json := member req "id"

def reqParams (req : Json) : Json := orEmpty (memberOrNull req "params")

/-! Results. -/
section Results

variable (outside : Outside)

def ERROR_CODE_META_KEY : String := "countinghouse/code"

/-- `content: [{type: 'text', text: text}]` -/
def content (text : Option String) : String × Json :=
  ("content", .array [.object (("type", .string "text") :: given "text" (text.map .string))])

def moduleToolResult (output outputSchema : Option Json) : Json :=
  match outputSchema with
  | some _ =>
      .object ([("isError", .bool false), content (output.map outside.stringify)] ++ given "structuredContent" output)
  | none =>
      let text := match output with
        | some (.string text) => text
        | none | some .null => ""
        | some output => outside.stringify output
      .object [("isError", .bool false), content (some text)]

def failedResult (err : Failure) : Json :=
  .object ([("isError", .bool true), content (some err.message)] ++
    given "_meta" (err.code.map fun code => .object [(ERROR_CODE_META_KEY, code)]))

def dataResult (data : Json) : Json :=
  let data := if isNull data then .object [] else data
  .object [("isError", .bool false), content (some (outside.stringify data)), ("structuredContent", data)]

def toolCallResult : Except Failure Json → Json
  | .error err => failedResult err
  | .ok data => dataResult outside data

def bullmqStateToTaskStatus (state : String) : String :=
  if state = "completed" then "completed" else if state = "failed" then "failed" else "working"

/-- `Math.max` of the times that there are. -/
def lastUpdated (job : Job) : ℚ :=
  ([job.finishedOn, job.processedOn].filterMap id).foldl max job.timestamp

def jobToTask (job : Job) (status : String) : Json :=
  .object ([("taskId", .string job.id), ("status", .string status), ("ttl", job.timeout.getD .null),
      ("createdAt", .string (outside.isoDate job.timestamp)),
      ("lastUpdatedAt", .string (outside.isoDate (lastUpdated job)))] ++
    if job.state = "failed" then given "statusMessage" (job.failedReason.map .string) else [])

def taskOf (job : Job) : Json := jobToTask outside job (bullmqStateToTaskStatus job.state)

end Results

/-! The nine handlers. -/
section Handlers

variable (outside : Outside) (req : Json)

def tasksUnsupported : String := "tasks require the server to be running in multi-thread mode (--workerThread)"

def resolveGatedIdentity (next : Identity → Json) : Json :=
  match outside.callerIdentity with
  | .error message => errorResponse (reqId req) JSONRPC_INTERNAL_ERROR message
  | .ok authCtx =>
      if outside.limited then errorResponse (reqId req) JSONRPC_INTERNAL_ERROR "rate limit exceeded"
      else next authCtx

def handleInitialize : Json :=
  let version := (nonEmpty (memberOrNull (reqParams req) "protocolVersion")).getD PROTOCOL_VERSION
  let tasks := Json.object [("list", .object []), ("cancel", .object []),
    ("requests", .object [("tools", .object [("call", .object [])])])]
  resultResponse (reqId req) (.object [("protocolVersion", .string version),
    ("capabilities", .object (("tools", .object []) :: if outside.workerThread then [("tasks", tasks)] else [])),
    ("serverInfo", .object [("name", .string SERVER_NAME), ("version", .string SERVER_VERSION)])])

def handlePing : Json := resultResponse (reqId req) (.object [])

def handleToolsList : Json :=
  let answer (tools : List Json) := resultResponse (reqId req) (.object [("tools", .array tools)])
  match outside.toolList with
  | .error message => errorResponse (reqId req) JSONRPC_INTERNAL_ERROR message
  | .ok tools =>
      if outside.authoringTools then
        match outside.callerIdentity with
        | .error _ => answer tools
        | .ok authCtx => answer (if authCtx.isAdmin then tools ++ outside.AUTHORING_TOOLS else tools)
      else answer tools

def checkBalance : Json :=
  let answer (result : Except Failure Json) := resultResponse (reqId req) (toolCallResult outside result)
  match outside.callerIdentity with
  | .error message => answer (.error ⟨none, message⟩)
  | .ok authCtx =>
      if outside.limited then answer (.error outside.rateLimitError)
      else match outside.balance with
        | .error err => answer (.error err)
        | .ok balance =>
            let userName := authCtx.userName.filter fun name => some name ≠ authCtx.appKey
            let balance := match balance with
              | some (.number value) => Json.number value
              | _ => .null
            answer (.ok (.object [("userName", (userName.map Json.string).getD .null), ("balance", balance)]))

def doCreateTaskForToolCall : Json :=
  match outside.addJob with
  | .error message => errorResponse (reqId req) JSONRPC_INTERNAL_ERROR message
  | .ok id =>
      let ttl := match memberOrNull (memberOrNull (reqParams req) "task") "ttl" with
        | .number value => Json.number value
        | _ => .null
      resultResponse (reqId req) (.object [("task", .object [("taskId", .string id), ("status", .string "working"),
        ("ttl", ttl), ("createdAt", .string outside.now), ("lastUpdatedAt", .string outside.now)])])

def createTaskForToolCall : Json :=
  if outside.workerThread then
    match outside.callAllowed with
    | .error message => errorResponse (reqId req) JSONRPC_INTERNAL_ERROR message
    | .ok () =>
        if outside.limited then resultResponse (reqId req) (toolCallResult outside (.error ⟨none, "rate limit exceeded"⟩))
        else doCreateTaskForToolCall outside req
  else errorResponse (reqId req) JSONRPC_INVALID_PARAMS
    "task-augmented tools/call requires the server to be running in multi-thread mode (--workerThread)"

def callTarget : Json :=
  match outside.callAllowed with
  | .error message => errorResponse (reqId req) JSONRPC_INTERNAL_ERROR message
  | .ok () =>
      match outside.invoked with
      | .error err => resultResponse (reqId req) (toolCallResult outside (.error err))
      | .ok output => resultResponse (reqId req) (moduleToolResult outside output outside.callSchema)

/-- `handleToolsCall`, for a name that is of no authoring tool or while there are none. -/
def callByName (name : String) : Json :=
  if name = "countinghouse_check_balance" then checkBalance outside req
  else if outside.target name then
    if isNull (memberOrNull (reqParams req) "task") then callTarget outside req
    else createTaskForToolCall outside req
  else errorResponse (reqId req) JSONRPC_INVALID_PARAMS ("unknown tool: " ++ name)

def nameMissing : Json := errorResponse (reqId req) JSONRPC_INVALID_PARAMS "params.name must be a non-empty string"

def LOAD_MODULE_LATE : String :=
  "loadModuleFromPath did not call back within 15000ms; the module's main " ++
  "entry may be hanging (an infinite loop, a promise that never resolves) during load. " ++
  "countinghouse_validate_module runs a module's main entry in an isolated, disposable child " ++
  "process and is the safer way to probe it before loading it live."

/-- `req` of countinghouse_call_tool: the id is that of the message. -/
def innerReq (name : String) (toolArgs : Json) : Json :=
  .object (given "id" (reqId req) ++
    [("params", .object [("name", .string name), ("arguments", orEmpty (memberOrNull toolArgs "arguments"))])])

/-- What countinghouse_call_tool makes of the answer to `innerReq`. -/
def outerAnswer (innerResp : Json) : Json :=
  match member innerResp "error" with
  | some error =>
      resultResponse (reqId req) (failedResult ⟨member error "code", ((member error "message").bind textOf).getD ""⟩)
  | none => innerResp

/-- `dispatchAuthoringTool`, where they are enabled. `again` answers to the call inside countinghouse_call_tool. -/
def dispatchAuthoringTool (again : Outside) (name : String) (toolArgs : Json) : Json :=
  let answer (result : Except Failure Json) := resultResponse (reqId req) (toolCallResult outside result)
  let refuse (message : String) := answer (.error ⟨none, message⟩)
  match outside.callerIdentity with
  | .error _ => errorResponse (reqId req) JSONRPC_INVALID_PARAMS ("unknown tool: " ++ name)
  | .ok authCtx =>
      if ¬ authCtx.isAdmin then
        answer (.error ⟨some (.string "ADMIN_REQUIRED"), "authoring tools require an admin key"⟩)
      else if name = "countinghouse_validate_plan" then answer (.ok (outside.validatePlan toolArgs))
      else if name = "countinghouse_validate_module" then
        match nonEmpty (memberOrNull toolArgs "path") with
        | none => refuse "arguments.path must be a non-empty string"
        | some path => answer (outside.validateModule path)
      else if name = "countinghouse_load_module" then
        match textOf (memberOrNull toolArgs "path"), textOf (memberOrNull toolArgs "name") with
        | some _, some name =>
            match outside.loadModule toolArgs with
            | .late => answer (.error ⟨some (.string "LOAD_MODULE_TIMEOUT"), LOAD_MODULE_LATE⟩)
            | .failed err => answer (.error err)
            | .found toolNames discoveryComplete =>
                let version := memberOrNull toolArgs "version"
                answer (.ok (.object [("loaded", .bool true), ("name", .string name),
                  ("version", if truthy version then version else .null),
                  ("toolNames", .array (toolNames.map .string)), ("discoveryComplete", .bool discoveryComplete)]))
        | _, _ => refuse "arguments.path and arguments.name are required"
      else if name = "countinghouse_call_tool" then
        match nonEmpty (memberOrNull toolArgs "name") with
        | none => refuse "arguments.name must be a non-empty string"
        | some inner =>
            if inner ∈ ToolRegistry.AUTHORING_TOOL_NAMES then
              refuse "countinghouse_call_tool cannot invoke an authoring tool"
            else outerAnswer req (callByName again (innerReq req inner toolArgs) inner)
      else refuse ("unknown authoring tool: " ++ name)

def handleToolsCall (again : Outside) : Json :=
  let params := reqParams req
  match nonEmpty (memberOrNull params "name") with
  | none => nameMissing req
  | some name =>
      if name ∈ ToolRegistry.AUTHORING_TOOL_NAMES ∧ outside.authoringTools = true then
        dispatchAuthoringTool outside req again name (orEmpty (memberOrNull params "arguments"))
      else callByName outside req name

/-- What tasks/get, tasks/result and tasks/cancel do first. -/
def withTask (next : String → Job → Json) : Json :=
  match nonEmpty (memberOrNull (reqParams req) "taskId") with
  | none => errorResponse (reqId req) JSONRPC_INVALID_PARAMS "params.taskId must be a non-empty string"
  | some taskId =>
      if outside.workerThread then
        resolveGatedIdentity outside req fun _ =>
          match outside.getJob with
          | .error _ => errorResponse (reqId req) JSONRPC_INVALID_PARAMS ("unknown task: " ++ taskId)
          | .ok job => next taskId job
      else errorResponse (reqId req) JSONRPC_INVALID_PARAMS tasksUnsupported

def handleTasksGet : Json := withTask outside req fun _ job => resultResponse (reqId req) (taskOf outside job)

/-- The error that a `failedReason` stands for. -/
def decodedFailure (failedReason : String) : Failure :=
  match TaskFailures.codeMatch failedReason.toList with
  | some (code, rest) => ⟨some (.string (String.ofList code)), String.ofList rest⟩
  | none => ⟨none, failedReason⟩

/-- `doHandleTasksResult`, once the job is found. -/
def resultOfJob (taskId : String) (job : Job) : Json :=
  let status := bullmqStateToTaskStatus job.state
  if status = "completed" then
    let schema := outside.advertised.filter fun schema => job.outputSchemaHash = some (outside.outputSchemaHash schema)
    resultResponse (reqId req) (moduleToolResult outside job.output schema)
  else if status = "failed" then
    resultResponse (reqId req) (toolCallResult outside (.error (decodedFailure (job.failedReason.getD "task failed"))))
  else errorResponse (reqId req) JSONRPC_INVALID_PARAMS
    ("task " ++ taskId ++ " has not completed yet (status: " ++ status ++ ")")

def handleTasksResult : Json := withTask outside req (resultOfJob outside req)

def handleTasksList : Json :=
  if outside.workerThread then
    resolveGatedIdentity outside req fun _ =>
      match outside.listJobs with
      | .error message => errorResponse (reqId req) JSONRPC_INTERNAL_ERROR message
      | .ok jobs => resultResponse (reqId req) (.object [("tasks", .array (jobs.map (taskOf outside)))])
  else errorResponse (reqId req) JSONRPC_INVALID_PARAMS tasksUnsupported

/-- The task is as it was before the job went, but for its status. -/
def handleTasksCancel : Json :=
  withTask outside req fun _ job =>
    match outside.removeJob with
    | .error message => errorResponse (reqId req) JSONRPC_INTERNAL_ERROR message
    | .ok () => resultResponse (reqId req) (jobToTask outside job "cancelled")

end Handlers

/-! One message, and the body of a request. -/
section Messages

def NOTIFICATION_METHODS : List String := ["notifications/initialized"]

/-- The method of a valid message: an object, of version 2.0, whose method is a string. -/
def methodOf (message : Json) : Option String :=
  match memberOrNull message "jsonrpc" with
  | .string version => if version = "2.0" then textOf (memberOrNull message "method") else none
  | _ => none

/-- `req && req.id` -/
def idOrItself (message : Json) : Option Json := if truthy message then reqId message else some message

/-- What the callback gets: no handler hands it an error, and null stands for no response. -/
def handle (outside again : Outside) (message : Json) : Except String (Option Json) :=
  match methodOf message with
  | none => .ok (some (errorResponse (idOrItself message) JSONRPC_INVALID_REQUEST "invalid JSON-RPC 2.0 request"))
  | some method =>
      if method ∈ NOTIFICATION_METHODS then .ok none
      else .ok (some (match method with
        | "initialize" => handleInitialize outside message
        | "ping" => handlePing message
        | "tools/list" => handleToolsList outside message
        | "tools/call" => handleToolsCall outside message again
        | "tasks/get" => handleTasksGet outside message
        | "tasks/result" => handleTasksResult outside message
        | "tasks/list" => handleTasksList outside message
        | "tasks/cancel" => handleTasksCancel outside message
        | method => errorResponse (reqId message) JSONRPC_METHOD_NOT_FOUND ("method not found: " ++ method)))

/-- The answers of the rest of the server, to the message of each number and to the call inside it. -/
abbrev Answers := Nat → Outside × Outside

/-- `async.mapSeries`, from a message of that number on: the first error ends it. -/
def mapSeries (answers : Answers) : Nat → List Json → Except String (List (Option Json))
  | _, [] => .ok []
  | number, message :: rest => do
      let response ← handle (answers number).1 (answers number).2 message
      let responses ← mapSeries answers (number + 1) rest
      .ok (response :: responses)

structure Reply where
  status : Nat
  body : Option Json

def isBatch : Json → Bool
  | .array _ => true
  | _ => false

/-- Null for a body that is no object and no array. -/
def messagesOf : Json → Option (List Json)
  | .array items => some items
  | .object fields => some [.object fields]
  | _ => none

def parseError : Json :=
  errorResponse (some .null) JSONRPC_PARSE_ERROR "request body must be a JSON-RPC 2.0 object or batch array"

/-- POST /mcp -/
def post (answers : Answers) (body : Json) : Reply :=
  match messagesOf body with
  | none => ⟨400, some parseError⟩
  | some messages =>
      match mapSeries answers 0 messages with
      | .error message => ⟨500, some (errorResponse (some .null) JSONRPC_INTERNAL_ERROR message)⟩
      | .ok results =>
          match results.reduceOption with
          | [] => ⟨202, none⟩
          | response :: rest => ⟨200, some (if isBatch body then .array (response :: rest) else response)⟩

end Messages

/-! Every handler makes its response of the id of its message. -/
section OfRequest

inductive Responds (id : Option Json) : Json → Prop where
  | error (code : ℚ) (message : String) : Responds id (errorResponse id code message)
  | result (result : Json) : Responds id (resultResponse id result)

theorem Responds.id_given {id response : Json} (responds : Responds (some id) response) :
    member response "id" = some id := by
  cases responds with
  | error => rfl
  | result => rfl

variable (outside again : Outside) (req : Json)

theorem gated_responds {next : Identity → Json} (then_ : ∀ authCtx, Responds (reqId req) (next authCtx)) :
    Responds (reqId req) (resolveGatedIdentity outside req next) := by
  unfold resolveGatedIdentity
  split
  · exact .error _ _
  · split
    · exact .error _ _
    · exact then_ _

theorem with_task_responds {next : String → Job → Json} (then_ : ∀ taskId job, Responds (reqId req) (next taskId job)) :
    Responds (reqId req) (withTask outside req next) := by
  unfold withTask
  split
  · exact .error _ _
  · split
    · apply gated_responds
      intro authCtx
      split
      · exact .error _ _
      · exact then_ _ _
    · exact .error _ _

theorem tools_list_responds : Responds (reqId req) (handleToolsList outside req) := by
  unfold handleToolsList
  split
  · exact .error _ _
  · split
    · split <;> exact .result _
    · exact .result _

theorem check_balance_responds : Responds (reqId req) (checkBalance outside req) := by
  unfold checkBalance
  split
  · exact .result _
  · split
    · exact .result _
    · split <;> exact .result _

theorem create_task_responds : Responds (reqId req) (createTaskForToolCall outside req) := by
  unfold createTaskForToolCall doCreateTaskForToolCall
  split
  · split
    · exact .error _ _
    · split
      · exact .result _
      · split
        · exact .error _ _
        · exact .result _
  · exact .error _ _

theorem call_target_responds : Responds (reqId req) (callTarget outside req) := by
  unfold callTarget
  split
  · exact .error _ _
  · split <;> exact .result _

theorem call_by_name_responds (name : String) : Responds (reqId req) (callByName outside req name) := by
  unfold callByName
  split
  · exact check_balance_responds outside req
  · split
    · split
      · exact call_target_responds outside req
      · exact create_task_responds outside req
    · exact .error _ _

theorem inner_req_id (name : String) (toolArgs : Json) : reqId (innerReq req name toolArgs) = reqId req := by
  unfold innerReq given
  cases found : reqId req with
  | none => rfl
  | some id => rfl

/-- An answer that is not an error goes out as it is, so it counts that the inner request has the id. -/
theorem outer_answer_responds {innerResp : Json} (responds : Responds (reqId req) innerResp) :
    Responds (reqId req) (outerAnswer req innerResp) := by
  unfold outerAnswer
  split
  · exact .result _
  · exact responds

theorem authoring_responds (name : String) (toolArgs : Json) :
    Responds (reqId req) (dispatchAuthoringTool outside req again name toolArgs) := by
  have called (inner : String) : Responds (reqId req)
      (outerAnswer req (callByName again (innerReq req inner toolArgs) inner)) := by
    apply outer_answer_responds
    have responds := call_by_name_responds again (innerReq req inner toolArgs) inner
    rwa [inner_req_id] at responds
  unfold dispatchAuthoringTool
  -- one arm for each tool, and call_tool the only one that is no result of its own
  repeat' split
  all_goals first
    | exact .result _
    | exact .error _ _
    | exact called _

theorem tools_call_responds : Responds (reqId req) (handleToolsCall outside req again) := by
  unfold handleToolsCall nameMissing
  dsimp only
  split
  · exact .error _ _
  · split
    · exact authoring_responds outside again req _ _
    · exact call_by_name_responds outside req _

theorem result_of_job_responds (taskId : String) (job : Job) :
    Responds (reqId req) (resultOfJob outside req taskId job) := by
  unfold resultOfJob
  dsimp only
  split
  · exact .result _
  · split
    · exact .result _
    · exact .error _ _

theorem tasks_list_responds : Responds (reqId req) (handleTasksList outside req) := by
  unfold handleTasksList
  split
  · apply gated_responds
    intro authCtx
    split
    · exact .error _ _
    · exact .result _
  · exact .error _ _

theorem tasks_cancel_responds : Responds (reqId req) (handleTasksCancel outside req) := by
  apply with_task_responds
  intro taskId job
  split
  · exact .error _ _
  · exact .result _

/-- The handlers together: a valid message gets one response of its own, unless its method is in the table. -/
theorem handle_valid {method : String} (valid : methodOf req = some method) (asked : method ∉ NOTIFICATION_METHODS) :
    ∃ response, handle outside again req = .ok (some response) ∧ Responds (reqId req) response := by
  simp only [handle, valid, if_neg asked]
  refine ⟨_, rfl, ?_⟩
  split
  · exact .result _
  · exact .result _
  · exact tools_list_responds outside req
  · exact tools_call_responds outside again req
  · exact with_task_responds outside req fun _ _ => .result _
  · exact with_task_responds outside req (result_of_job_responds outside req)
  · exact tasks_list_responds outside req
  · exact tasks_cancel_responds outside req
  · exact .error _ _

theorem handle_notification {method : String} (valid : methodOf req = some method) (known : method ∈ NOTIFICATION_METHODS) :
    handle outside again req = .ok none := by
  simp only [handle, valid, if_pos known]

theorem handle_invalid (invalid : methodOf req = none) :
    ∃ response, handle outside again req = .ok (some response) ∧ Responds (idOrItself req) response := by
  simp only [handle, invalid]
  exact ⟨_, rfl, .error _ _⟩

end OfRequest

/-! The law of the protocol, and the bodies for which the gateway keeps it. -/
section Correspondence

/-- The response that a message may have: one with its id, and none for a valid message that has no id. -/
structure Matches (message : Json) (response : Option Json) : Prop where
  carried : ∀ id, reqId message = some id → ∃ held, response = some held ∧ member held "id" = some id
  silent : (methodOf message).isSome = true → reqId message = none → response = none

/-- What a reply is, for the messages of a body and what the callback had for each of them. -/
structure Assembled (batch : Bool) (called : List (Option Json)) (reply : Reply) : Prop where
  empty : called.reduceOption = [] → reply = ⟨202, none⟩
  array : batch = true → called.reduceOption ≠ [] → reply = ⟨200, some (.array called.reduceOption)⟩
  single : batch = false → called.reduceOption ≠ [] →
    ∃ response, called.reduceOption = [response] ∧ reply = ⟨200, some response⟩

/-- The reply to a body holds the responses of its messages in their order, and each message has the one that it may
have. A body without messages is refused. -/
structure Corresponds (answers : Answers) (body : Json) : Prop where
  refused : messagesOf body = none → post answers body = ⟨400, some parseError⟩
  each : ∀ messages, messagesOf body = some messages → ∃ called, mapSeries answers 0 messages = .ok called ∧
    List.Forall₂ Matches messages called ∧ Assembled (isBatch body) called (post answers body)

/-- A message has an id exactly when its method is not in the table, if it is valid. -/
def ToldApart (message : Json) : Prop :=
  ∀ method, methodOf message = some method → ((reqId message).isSome = true ↔ method ∉ NOTIFICATION_METHODS)

theorem id_or_itself_given {message id : Json} (has : reqId message = some id) : idOrItself message = some id := by
  cases message with
  | object fields => exact has
  | null | bool | number | string | array => cases has

theorem matches_none {message : Json} : Matches message none ↔ (reqId message).isSome = false := by
  constructor
  · intro fits
    cases has : reqId message with
    | none => rfl
    | some id =>
        obtain ⟨held, isHeld, _⟩ := fits.carried id has
        cases isHeld
  · intro hasNone
    constructor
    · intro id has
      simp [has] at hasNone
    · intro _ _
      rfl

theorem matches_own {message held : Json} (valid : (methodOf message).isSome = true)
    (responds : Responds (reqId message) held) : Matches message (some held) ↔ (reqId message).isSome = true := by
  cases has : reqId message with
  | none =>
      simp only [Option.isSome_none, Bool.false_eq_true, iff_false]
      intro fits
      cases fits.silent valid has
  | some id =>
      rw [has] at responds
      simp only [Option.isSome_some, iff_true]
      constructor
      · intro other same
        cases has.symm.trans same
        exact ⟨held, rfl, responds.id_given⟩
      · intro _ hasNone
        cases has.symm.trans hasNone

/-- An invalid message always has the response that it may have. -/
theorem matches_refusal {message held : Json} (invalid : methodOf message = none)
    (responds : Responds (idOrItself message) held) : Matches message (some held) := by
  constructor
  · intro id has
    rw [id_or_itself_given has] at responds
    exact ⟨held, rfl, responds.id_given⟩
  · intro valid
    simp [invalid] at valid

theorem matches_iff {outside again : Outside} {message : Json} {response : Option Json}
    (called : handle outside again message = .ok response) : Matches message response ↔ ToldApart message := by
  cases valid : methodOf message with
  | none =>
      obtain ⟨held, handled, responds⟩ := handle_invalid outside again message valid
      cases handled.symm.trans called
      have apart : ToldApart message := by simp [ToldApart, valid]
      exact iff_of_true (matches_refusal valid responds) apart
  | some method =>
      have apart : ToldApart message ↔ ((reqId message).isSome = true ↔ method ∉ NOTIFICATION_METHODS) := by
        simp [ToldApart, valid]
      rw [apart]
      by_cases known : method ∈ NOTIFICATION_METHODS
      · cases (handle_notification outside again message valid known).symm.trans called
        simp [matches_none, known]
      · obtain ⟨held, handled, responds⟩ := handle_valid outside again message valid known
        cases handled.symm.trans called
        simp [matches_own (by simp [valid]) responds, known]

/-- No message of a body stops the ones after it. -/
theorem map_series_ok (answers : Answers) (number : Nat) (messages : List Json) :
    ∃ called, mapSeries answers number messages = .ok called ∧ called.length = messages.length ∧
      (List.Forall₂ Matches messages called ↔ ∀ message ∈ messages, ToldApart message) := by
  induction messages generalizing number with
  | nil => exact ⟨[], rfl, rfl, by simp⟩
  | cons message rest ih =>
      obtain ⟨responses, mapped, long, tail⟩ := ih (number + 1)
      have called : ∃ response, handle (answers number).1 (answers number).2 message = .ok response := by
        cases valid : methodOf message with
        | none =>
            obtain ⟨held, handled, _⟩ := handle_invalid (answers number).1 (answers number).2 message valid
            exact ⟨_, handled⟩
        | some method =>
            by_cases known : method ∈ NOTIFICATION_METHODS
            · exact ⟨_, handle_notification _ _ message valid known⟩
            · obtain ⟨held, handled, _⟩ := handle_valid (answers number).1 (answers number).2 message valid known
              exact ⟨_, handled⟩
      obtain ⟨response, handled⟩ := called
      refine ⟨response :: responses, ?_, ?_, ?_⟩
      · simp only [mapSeries, handled, mapped]
        rfl
      · simp [long]
      · rw [List.forall₂_cons, tail, matches_iff handled, List.forall_mem_cons]

theorem post_assembled (answers : Answers) {body : Json} {messages : List Json} {called : List (Option Json)}
    (are : messagesOf body = some messages) (mapped : mapSeries answers 0 messages = .ok called)
    (long : called.length = messages.length) : Assembled (isBatch body) called (post answers body) := by
  have reply : post answers body = match called.reduceOption with
      | [] => ⟨202, none⟩
      | response :: rest => ⟨200, some (if isBatch body then .array (response :: rest) else response)⟩ := by
    simp [post, are, mapped]
  rw [reply]
  constructor
  · intro none
    rw [none]
  · intro batch some
    cases held : called.reduceOption with
    | nil => exact absurd held some
    | cons response rest => simp [batch]
  · intro one some
    -- a body that is no batch is one message
    have single : called.length = 1 := by
      cases body with
      | object fields =>
          cases are
          exact long
      | array => cases one
      | null | bool | number | string => cases are
    obtain ⟨response, isOne⟩ := List.length_eq_one_iff.mp single
    subst isOne
    cases response with
    | none => exact absurd rfl some
    | some response => exact ⟨response, rfl, by simp [one]⟩

/-- The gateway keeps the law for the bodies whose messages have an id exactly when their method is in no table, whatever
the rest of the server answers. -/
theorem responses_correspond (answers : Answers) (body : Json) :
    Corresponds answers body ↔ ∀ messages, messagesOf body = some messages → ∀ message ∈ messages, ToldApart message := by
  constructor
  · intro law messages are
    obtain ⟨called, mapped, fits, _⟩ := law.each messages are
    obtain ⟨same, again, _, apart⟩ := map_series_ok answers 0 messages
    cases mapped.symm.trans again
    exact apart.mp fits
  · intro apart
    constructor
    · intro none
      simp [post, none]
    · intro messages are
      obtain ⟨called, mapped, long, fits⟩ := map_series_ok answers 0 messages
      exact ⟨called, mapped, fits.mpr (apart messages are), post_assembled answers are mapped long⟩

/-- A server on which nothing is loaded. -/
def idleServer : Outside where
  workerThread := false
  authoringTools := false
  stringify := fun _ => "{}"
  isoDate := fun _ => "1970-01-01T00:00:00.000Z"
  now := "1970-01-01T00:00:00.000Z"
  AUTHORING_TOOLS := []
  callerIdentity := .error "unknown user"
  limited := false
  rateLimitError := ⟨some (.string "RATE_LIMIT_EXCEEDED"), "rate limit exceeded"⟩
  toolList := .ok []
  balance := .ok none
  validatePlan := id
  validateModule := fun _ => .ok .null
  loadModule := fun _ => .late
  target := fun _ => false
  callAllowed := .error "unknown user"
  callSchema := none
  invoked := .ok none
  addJob := .error "no queue"
  getJob := .error "no queue"
  listJobs := .ok []
  removeJob := .ok ()
  advertised := none
  outputSchemaHash := fun _ => ""

/-- A notification of the protocol that is not in the table. -/
def cancelledNotice : Json :=
  .object [("jsonrpc", .string "2.0"), ("method", .string "notifications/cancelled")]

/-- It is answered, with an error that has no id. -/
theorem cancelled_notice_answered :
    post (fun _ => (idleServer, idleServer)) cancelledNotice =
        ⟨200, some (errorResponse none JSONRPC_METHOD_NOT_FOUND "method not found: notifications/cancelled")⟩ ∧
      ¬ Corresponds (fun _ => (idleServer, idleServer)) cancelledNotice := by
  constructor
  · rfl
  · intro law
    have valid : methodOf cancelledNotice = some "notifications/cancelled" := rfl
    obtain ⟨called, mapped, fits, _⟩ := law.each [cancelledNotice] rfl
    cases mapped
    cases fits with
    | cons first rest => cases first.silent (by simp [valid]) rfl

end Correspondence

end Countinghouse.GatewayMessages
