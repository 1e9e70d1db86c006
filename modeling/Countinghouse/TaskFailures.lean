import Countinghouse.HopPaths

/-!
The error of an action on a worker, on two ways to the client. A tools/call gets it from
`invokeAction` of lib/device-manager.js. A task gets it from `invokeJobs` by way of the job
queue, which keeps nothing but a text: lib/job-control.js puts the code in front of the
message, and doHandleTasksResult of lib/mcp/gateway.js takes it off again.

A call is one that is answered in time, and a job one that is not retried any more. Values are
compared as they are before they become JSON.
-/

namespace Countinghouse.TaskFailures

open PlainObject HopPaths
open MainThread hiding orNull

/-! The text that a failed job keeps. -/
section FailedReason

def isCodeChar (c : Char) : Bool := ('A' ≤ c && c ≤ 'Z') || ('0' ≤ c && c ≤ '9') || c == '_'

def isCodeStart (c : Char) : Bool := 'A' ≤ c && c ≤ 'Z'

/-- A whole text that matches `[A-Z][A-Z0-9_]*`. -/
def isCode (text : List Char) : Bool := text.head?.any isCodeStart && text.all isCodeChar

/-- `/^([A-Z][A-Z0-9_]*): /.exec(failedReason)`: the group, and what follows the match. No code has a colon, so the group
is all that can be of one. -/
def codeMatch (failedReason : List Char) : Option (List Char × List Char) :=
  let code := failedReason.takeWhile isCodeChar
  match failedReason.dropWhile isCodeChar with
  | ':' :: ' ' :: rest => if isCode code then some (code, rest) else none
  | _ => none

theorem code_match_code {failedReason code rest : List Char} (found : codeMatch failedReason = some (code, rest)) :
    isCode code = true := by
  unfold codeMatch at found
  dsimp only at found
  split at found
  · split at found
    · rename_i isOne
      cases found
      exact isOne
    · cases found
  · cases found

theorem code_match_prefix {code : List Char} (isOne : isCode code = true) (message : List Char) :
    codeMatch (code ++ ':' :: ' ' :: message) = some (code, message) := by
  have each : ∀ c ∈ code, isCodeChar c = true := List.all_eq_true.mp (Bool.and_eq_true_iff.mp isOne).2
  have noColon : isCodeChar ':' = false := by decide
  have taken : (code ++ ':' :: ' ' :: message).takeWhile isCodeChar = code := by
    rw [List.takeWhile_append_of_pos each, List.takeWhile_cons_of_neg (by simp [noColon]), List.append_nil]
  have dropped : (code ++ ':' :: ' ' :: message).dropWhile isCodeChar = ':' :: ' ' :: message := by
    rw [List.dropWhile_append_of_pos each, List.dropWhile_cons_of_neg (by simp [noColon])]
  simp [codeMatch, taken, dropped, isOne]

theorem code_not_inherited {text : String} (isOne : isCode text.toList = true) : text ∉ inheritedNames := by
  have small : ∀ name ∈ inheritedNames, isCode name.toList = false := by decide
  intro known
  rw [small text known] at isOne
  cases isOne

end FailedReason

/-! The two ways. -/
section Ways

variable (host : Host)

/-- The result of a tool that has failed: the text of its content, and the code in `_meta`. -/
structure ToolError where
  text : Value
  code : Option Value

inductive Answer where
  | completed (data : Value)
  | failed (result : ToolError)

/-- `err.message != null ? err.message : String(err)` -/
def errorText (err : HopError) : Value :=
  match err.message with
  | .undefined => .string "Error"
  | .null => .string "Error: null"
  | message => message

def toolCallResult (err : HopError) : ToolError :=
  ⟨errorText err, if err.code.isNull then none else some err.code⟩

/-- What the callback of sendInvokeActionMessage gives to its caller's; without a result it has thrown, or was not
called. -/
def workerReplied (report : Report) : Option (Option HopError × Value) := do
  let reply ← sendMessageToParent report
  let outcome ← reply.received
  match outcome.error with
  | none => some (none, outcome.data)
  | some err => (rewrapped host err).map fun err => (some err, outcome.data)

def invokeAction (report : Report) : Option (Option HopError × Value) := workerReplied host report

def invokeJobs (report : Report) : Option (Option HopError × Value) := workerReplied host report

def toolsCall (report : Report) : Option Answer :=
  (invokeAction host report).map fun called =>
    match called.1 with
    | none => .completed called.2
    | some err => .failed (toolCallResult err)

/-- The text that `new Error(failMessage)` has for its message, which is all that the queue keeps. -/
def failedReason (err : HopError) : Option String :=
  if err.code.isNull then (newError err.message).bind fun err => err.message.text
  else do
    let code ← err.code.text
    let message ← err.message.text
    some (code ++ ": " ++ message)

/-- The error that doHandleTasksResult makes of the text. -/
def decodedError (failedReason : String) : HopError :=
  match codeMatch failedReason.toList with
  | some (code, rest) => ⟨false, .string (String.ofList code), .string (String.ofList rest)⟩
  | none => ⟨false, .undefined, .string failedReason⟩

def tasksResult (report : Report) : Option Answer :=
  (invokeJobs host report).bind fun called =>
    match called.1 with
    | none => some (.completed called.2)
    | some err => (failedReason err).map fun reason => .failed (toolCallResult (decodedError reason))

/-- The code that both ways make a DeviceError with: the code of the error, or its message when it has none. -/
def rewrapCode : Report → Value
  | .failed err (.value _) =>
      if (orNull err.code).isNull then
        match err.message.text with
        | some text => .string text
        | none => .undefined
      else orNull err.code
  | .failed _ .function | .done .function => .string "Invoke fail"
  | .done (.value _) => .undefined

end Ways

/-! A failed task answers as the call would have. -/
section Agreement

variable {host : Host}

theorem reply_posted {reply sent : Reply} (posted : reply.posted = some sent) : sent = reply := by
  unfold Reply.posted at posted
  split at posted
  · exact (Option.some.inj posted).symm
  · cases posted

theorem received_error {reply : Reply} {outcome : Outcome} {err : HopError} (received : reply.received = some outcome)
    (failed : outcome.error = some err) :
    reply.errMsg.isNull = false ∧ (∃ text, reply.errMsg.text = some text ∧ err.message = .string text) ∧
      err.code = if reply.errCode.isNull then .undefined else reply.errCode := by
  unfold Reply.received at received
  split at received
  · cases received
    cases failed
  · rename_i some
    obtain ⟨made, isMade, rfl⟩ := Option.map_eq_some_iff.mp received
    cases failed
    refine ⟨by simpa using some, ?_, rfl⟩
    cases shown : reply.errMsg with
    | undefined => simp [shown, Value.isNull] at some
    | null => simp [shown, Value.isNull] at some
    | string text =>
        rw [shown] at isMade
        cases isMade
        exact ⟨text, rfl, rfl⟩
    | scalar text =>
        rw [shown] at isMade
        cases isMade
        exact ⟨text, rfl, rfl⟩
    | object text clones fields =>
        rw [shown] at isMade
        obtain ⟨text, isText, rfl⟩ := Option.map_eq_some_iff.mp isMade
        exact ⟨text, isText, rfl⟩

theorem worker_replied_error {report : Report} {err : HopError} {data : Value}
    (replied : workerReplied host report = some (some err, data)) :
    (rewrapCode report).isNull = false ∧ deviceError host (rewrapCode report) = some err := by
  obtain ⟨reply, posted, replied⟩ := Option.bind_eq_some_iff.mp replied
  obtain ⟨outcome, received, replied⟩ := Option.bind_eq_some_iff.mp replied
  cases failed : outcome.error with
  | none => simp [failed] at replied
  | some plain =>
      simp only [failed, Option.map_eq_some_iff, Prod.mk.injEq, Option.some.injEq] at replied
      obtain ⟨made, isMade, rfl, -⟩ := replied
      obtain ⟨some, ⟨text, isText, isMessage⟩, isCode⟩ := received_error received failed
      -- what the worker has posted decides which of the two the error is made with
      suffices same : rewrapCode report = if plain.code.isNull then plain.message else plain.code by
        rw [same]
        refine ⟨?_, isMade⟩
        by_cases coded : plain.code.isNull = true
        · rw [if_pos coded, isMessage]
          rfl
        · rw [if_neg coded]
          simpa using coded
      rw [isCode, isMessage]
      cases report with
      | done output =>
          cases output with
          | value data =>
              rw [reply_posted posted] at some
              cases some
          | function =>
              rw [reply_posted posted] at isText ⊢
              cases isText
              rfl
      | failed err fault =>
          cases fault with
          | value data =>
              rw [reply_posted posted] at isText ⊢
              simp only [rewrapCode, isText]
              by_cases coded : (orNull err.code).isNull = true
              · simp only [coded, ↓reduceIte]
                rfl
              · simp only [coded, Bool.false_eq_true, ↓reduceIte]
          | function =>
              rw [reply_posted posted] at isText ⊢
              cases isText
              rfl

theorem decoded_coded {code : String} (isOne : isCode code.toList = true) (message : String) :
    decodedError (code ++ ": " ++ message) = ⟨false, .string code, .string message⟩ := by
  have spelled : (code ++ ": " ++ message).toList = code.toList ++ ':' :: ' ' :: message.toList := by simp
  simp [decodedError, spelled, code_match_prefix isOne]

theorem coded_message {code : String} (isOne : isCode code.toList = true) {message : Value} {shown : String}
    (isMessage : getErrorMessage host (.string code) = some message) (isShown : message.text = some shown) :
    message = .string shown := by
  simp only [getErrorMessage, Value.text, Option.map_some, Option.some.injEq] at isMessage
  cases found : PlainObject.get host.errorInfo code with
  | own own =>
      simp only [found] at isMessage
      subst isMessage
      cases isShown
      rfl
  | inherited => exact absurd (inherited_mem found) (code_not_inherited isOne)
  | undefined =>
      simp only [found] at isMessage
      subst isMessage
      cases isShown
      rfl

/-- The text of a DeviceError under a code gives its error back exactly when the code is a text of the decoder's form. -/
theorem decoded_iff {code : Value} {err : HopError} {reason : String} (coded : code.isNull = false)
    (made : deviceError host code = some err) (kept : failedReason err = some reason) :
    toolCallResult (decodedError reason) = toolCallResult err ↔
      ∃ text, code = .string text ∧ isCode text.toList = true := by
  obtain ⟨message, isMessage, rfl⟩ := Option.map_eq_some_iff.mp made
  simp only [failedReason, coded, Bool.false_eq_true, ↓reduceIte, Option.bind_eq_bind, Option.bind_eq_some_iff,
    Option.some.injEq] at kept
  obtain ⟨key, isKey, shown, isShown, rfl⟩ := kept
  constructor
  · intro same
    have codes := congrArg ToolError.code same
    simp only [toolCallResult, coded, Bool.false_eq_true, ↓reduceIte] at codes
    unfold decodedError at codes
    split at codes
    · rename_i group rest found
      simp only [Value.isNull, Bool.false_eq_true, ↓reduceIte, Option.some.injEq] at codes
      exact ⟨_, codes.symm, by simpa using code_match_code found⟩
    · cases codes
  · rintro ⟨text, rfl, isOne⟩
    cases isKey
    rw [decoded_coded isOne shown, coded_message isOne isMessage isShown]
    rfl

/-- A task that has failed answers as the call would have exactly when the code under which the error is passed on is a
text of the form that the decoder looks for. -/
theorem failed_task_iff (host : Host) (report : Report) (result : ToolError)
    (failed : tasksResult host report = some (.failed result)) :
    toolsCall host report = some (.failed result) ↔
      ∃ text, rewrapCode report = .string text ∧ isCode text.toList = true := by
  obtain ⟨⟨error, data⟩, replied, answered⟩ := Option.bind_eq_some_iff.mp failed
  cases error with
  | none => cases answered
  | some err =>
      obtain ⟨reason, kept, same⟩ := Option.map_eq_some_iff.mp answered
      simp only [Answer.failed.injEq] at same
      obtain ⟨coded, made⟩ := worker_replied_error replied
      rw [← decoded_iff coded made kept, same]
      have called : invokeAction host report = some (some err, data) := replied
      simp only [toolsCall, called, Option.map_some, Option.some.injEq, Answer.failed.injEq]
      exact eq_comm

def smallHost : Host where
  errorInfo := [("DEVICE_INVOKE_FAIL", "device invoke failed")]
  debug := false
  ci := true
  authThrows _ := false
  meteringThrows _ := false
  redisCommands := []
  redisThrows _ _ := false
  stringify := Value.text
  stringifySafe := Value.text

theorem runtime_code_kept :
    toolsCall smallHost (.failed ⟨.string "DEVICE_INVOKE_FAIL", .string "device invoke failed: no paper"⟩ (.value .null)) =
      some (.failed ⟨.string "device invoke failed", some (.string "DEVICE_INVOKE_FAIL")⟩) :=
  (failed_task_iff smallHost _ _ rfl).mpr ⟨"DEVICE_INVOKE_FAIL", rfl, by decide⟩

/-- A module makes a DeviceError with a sentence for its code. -/
theorem sentence_doubled :
    toolsCall smallHost (.failed ⟨.string "out of paper", .string "out of paper"⟩ (.value .null)) =
        some (.failed ⟨.string "out of paper", some (.string "out of paper")⟩) ∧
      tasksResult smallHost (.failed ⟨.string "out of paper", .string "out of paper"⟩ (.value .null)) =
        some (.failed ⟨.string "out of paper: out of paper", none⟩) := by
  exact ⟨rfl, rfl⟩

end Agreement

end Countinghouse.TaskFailures
