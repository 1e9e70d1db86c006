import Countinghouse.HopPaths
import Countinghouse.RequestQueue

/-!
Requests between the main thread and a worker: endWith, sendMessageToWorker and
onWorkerMessage on one side, sendActiveMessageToParent and the replies of lib/sandbox.js on
the other. Either side takes any message at all, so that replies may be lost, repeated or made
up.

Callbacks return, and postMessage does not throw. A callback may send while it runs; a
message is taken when none runs. What throws on the way to a callback leaves the queue as it
is.
-/

namespace Countinghouse.AnsweredRequests

open PlainObject MainThread HopPaths RequestQueue

variable (host : Host)

/-! The main thread's side. -/
section MainSides

structure Ended where
  code : String
  name : String
  reason : String

structure MainSide where
  queue : Queue Outcome
  ended : Option Ended
  worker : Bool

def mainStart (worker : Bool) : MainSide := ⟨empty, none, worker⟩

/-- What sendMessageToWorker is given as its callback. -/
inductive Given where
  | nothing
  | value
  | function

inductive MainEvent where
  | sendMessageToWorker (callback : Given)
  | onWorkerMessage (msg : Value)
  | endWith (ended : Ended)
  | returned

/-- `new CHError(code, name, reason)` -/
def chError (ended : Ended) : HopError :=
  let details := ": " ++ ended.name ++ " " ++ ended.reason
  ⟨true, .string ended.code, .string (match get host.errorInfo ended.code with
    | .own message => message ++ details
    | .inherited => (inheritedMember ended.code).shown ++ details
    | .undefined => ended.code)⟩

def endedOutcome (ended : Ended) : Outcome := ⟨some (chError host ended), .null, .undefined⟩

/-- A reply's arguments for the callback. -/
def replyOutcome (msg : Value) : Option Outcome :=
  Reply.received ⟨msg.read "errMsg", msg.read "errCode", msg.read "data", .undefined⟩

def MainSide.sendMessageToWorker (s : MainSide) (callback : Given) : MainSide :=
  match s.ended, callback with
  | some ended, .function => { s with queue := s.queue.answer (endedOutcome host ended) }
  | some _, _ => s
  | none, .function => { s with queue := if s.worker then s.queue.request true else s.queue.drop }
  | none, .value => if s.worker then { s with queue := s.queue.request false } else s
  | none, .nothing => s

/-- The number that a message is a reply to: not a child's own message, and none of the two ids that no request has. -/
def repliesTo (msg : Value) : Option String := do
  let id ← msg.member "id"
  if id.isNull || id.is "deviceonline" || id.is "jobprogress" || !(msg.read "category").is "reply" then none
  else id.text

def MainSide.onWorkerMessage (s : MainSide) (msg : Value) : MainSide :=
  match repliesTo msg, replyOutcome msg with
  | some key, some outcome => { s with queue := s.queue.deliver key outcome }
  | _, _ => s

def MainSide.endWith (s : MainSide) (ended : Ended) : MainSide :=
  if s.ended.isSome then s
  else { s with ended := some ended, queue := s.queue.drain (endedOutcome host ended) }

def MainSide.step (s : MainSide) : MainEvent → MainSide
  | .sendMessageToWorker callback => s.sendMessageToWorker host callback
  | .onWorkerMessage msg => s.onWorkerMessage msg
  | .endWith ended => s.endWith host ended
  | .returned => { s with queue := s.queue.returned }

def MainSide.run (s : MainSide) (events : List MainEvent) : MainSide := events.foldl (MainSide.step host) s

@[simp]
theorem MainSide.run_nil (s : MainSide) : s.run host [] = s := rfl

@[simp]
theorem MainSide.run_cons (s : MainSide) (event : MainEvent) (rest : List MainEvent) :
    s.run host (event :: rest) = (s.step host event).run host rest := rfl

/-- The main thread takes one message after another, and no callback calls endWith. -/
def MainEvent.Allowed (s : MainSide) : MainEvent → Prop
  | .onWorkerMessage _ | .endWith _ => s.queue.Idle
  | .sendMessageToWorker _ | .returned => True

def MainSide.Ordered : MainSide → List MainEvent → Prop
  | _, [] => True
  | s, event :: rest => event.Allowed s ∧ (s.step host event).Ordered rest

end MainSides

/-! The worker's side. -/
section WorkerSides

inductive WorkerEvent where
  | sendActiveMessageToParent (callback : Bool)
  /-- A peer-channel-request, peer-self-invalidate or sandbox-violation. -/
  | sendWithoutReply
  | onMessage (msg : Value)
  | returned

/-- `msg.errMsg != null ? callback(new Error(msg.errMsg), null) : callback(null, msg[field])` -/
def resultIn (field : String) (msg : Value) : Option Outcome :=
  if (msg.read "errMsg").isNull then some ⟨none, msg.read field, .undefined⟩
  else (newError (msg.read "errMsg")).map fun err => ⟨some err, .null, .undefined⟩

/-- The same with nothing but the error. -/
def errorOnly (msg : Value) : Option Outcome :=
  if (msg.read "errMsg").isNull then some ⟨none, .undefined, .undefined⟩
  else (newError (msg.read "errMsg")).map fun err => ⟨some err, .undefined, .undefined⟩

def invokeOutcome (msg : Value) : Option Outcome :=
  Reply.received ⟨msg.read "errMsg", msg.read "errCode", msg.read "data", msg.read "platformMetering"⟩

/-- `value || text` -/
def orText (value : Value) (text : String) : Value := if (HopPaths.orNull value).isNull then .string text else value

def refusedOutcome (msg : Value) : Option Outcome :=
  (newError (orText (msg.read "errMsg") "refused by the main thread")).map fun err =>
    ⟨some { err with code := orText (msg.read "errCode") "REFUSED" }, .null, .undefined⟩

def rateLimitedOutcome (_msg : Value) : Option Outcome :=
  some ⟨some ⟨false, .string "RATE_LIMITED", .string "too many messages to the main thread (--moduleMessageRate)"⟩,
    .null, .undefined⟩

/-- A case that looks the callback up, calls it and deletes the entry. -/
def replyCase (outcome : Value → Option Outcome) (q : Queue Outcome) (msg : Value) : Queue Outcome :=
  match (msg.read "msgID").text, outcome msg with
  | some key, some outcome => q.deliver key outcome
  | _, _ => q

def queryDeviceReply : Queue Outcome → Value → Queue Outcome := replyCase (resultIn "spec")
def invokeActionReply : Queue Outcome → Value → Queue Outcome := replyCase invokeOutcome
def deviceLogReply : Queue Outcome → Value → Queue Outcome := replyCase errorOnly
def redisCommandReply : Queue Outcome → Value → Queue Outcome := replyCase (resultIn "result")
def getJobInfoReply : Queue Outcome → Value → Queue Outcome := replyCase (resultIn "job")
def peerMeteringReply : Queue Outcome → Value → Queue Outcome := replyCase (resultIn "meteringResult")

/-- A case that deletes the entry also when there is no function in it. -/
def refusalCase (outcome : Value → Option Outcome) (q : Queue Outcome) (msg : Value) : Queue Outcome :=
  match (msg.read "msgID").text with
  | none => q
  | some key =>
      match q.waiting key with
      | none => q.discard key
      | some _ =>
          match outcome msg with
          | some outcome => q.deliver key outcome
          | none => q

def refusedReply : Queue Outcome → Value → Queue Outcome := refusalCase refusedOutcome
def rateLimitedReply : Queue Outcome → Value → Queue Outcome := refusalCase rateLimitedOutcome

/-- The other commands are requests to the worker. -/
def onMessage (q : Queue Outcome) (msg : Value) : Queue Outcome :=
  match msg.read "command" with
  | .string "refused-reply" => refusedReply q msg
  | .string "rate-limited-reply" => rateLimitedReply q msg
  | .string "query-device-reply" => queryDeviceReply q msg
  | .string "invoke-action-reply" => invokeActionReply q msg
  | .string "device-log-reply" => deviceLogReply q msg
  | .string "redis-command-reply" => redisCommandReply q msg
  | .string "get-job-info-reply" => getJobInfoReply q msg
  | .string "peer-metering-reply" => peerMeteringReply q msg
  | _ => q

def workerStep (q : Queue Outcome) : WorkerEvent → Queue Outcome
  | .sendActiveMessageToParent callback => q.request callback
  | .sendWithoutReply => q.skip
  | .onMessage msg => onMessage q msg
  | .returned => q.returned

def workerRun (q : Queue Outcome) (events : List WorkerEvent) : Queue Outcome := events.foldl workerStep q

def WorkerEvent.Allowed (q : Queue Outcome) : WorkerEvent → Prop
  | .onMessage _ => q.Idle
  | .sendActiveMessageToParent _ | .sendWithoutReply | .returned => True

def WorkerOrdered : Queue Outcome → List WorkerEvent → Prop
  | _, [] => True
  | q, event :: rest => event.Allowed q ∧ WorkerOrdered (workerStep q event) rest

/-- The arguments of the callback that a reply or a refusal is for. -/
def answerIn (msg : Value) : Option Outcome :=
  match msg.read "command" with
  | .string "refused-reply" => refusedOutcome msg
  | .string "rate-limited-reply" => rateLimitedOutcome msg
  | .string "query-device-reply" => resultIn "spec" msg
  | .string "invoke-action-reply" => invokeOutcome msg
  | .string "device-log-reply" => errorOnly msg
  | .string "redis-command-reply" => resultIn "result" msg
  | .string "get-job-info-reply" => resultIn "job" msg
  | .string "peer-metering-reply" => resultIn "meteringResult" msg
  | _ => none

end WorkerSides

/-! The main thread's requests. -/
section MainRequests

variable {host : Host} {s : MainSide} {past : List MainEvent}

/-- A message that has come, for the request of that number, with what the callback was called with. -/
def Replied (past : List MainEvent) (key : String) (args : Outcome) : Prop :=
  ∃ msg, .onWorkerMessage msg ∈ past ∧ repliesTo msg = some key ∧ replyOutcome msg = some args

structure Tracked (host : Host) (s : MainSide) (past : List MainEvent) : Prop where
  sound : s.queue.Sound
  calls : ∀ call ∈ s.queue.calls, (∃ key, call.key = some key ∧ Replied past key call.args) ∨
    ∃ ended, s.ended = some ended ∧ call.args = endedOutcome host ended
  closing : ∀ rest args, s.queue.turn = .draining rest args →
    ∃ ended, s.ended = some ended ∧ args = endedOutcome host ended
  emptied : s.ended ≠ none → s.queue.entries = []

theorem Replied.later {key : String} {args : Outcome} (replied : Replied past key args) (event : MainEvent) :
    Replied (past ++ [event]) key args := by
  obtain ⟨msg, member, rest⟩ := replied
  exact ⟨msg, List.mem_append_left _ member, rest⟩

theorem start_tracked (worker : Bool) : Tracked host (mainStart worker) [] where
  sound := Queue.empty_sound
  calls := by simp [mainStart, RequestQueue.empty]
  closing := by simp [mainStart, RequestQueue.empty]
  emptied := by simp [mainStart]

/-- A step that leaves `ended` as it is and does one operation on the queue. -/
theorem Tracked.moved (tracked : Tracked host s past) (event : MainEvent) (op : Op Outcome)
    (allowed : op.Allowed s.queue)
    (made : ∀ call, s.queue.Makes op call → (∃ key, call.key = some key ∧ Replied (past ++ [event]) key call.args) ∨
      ∃ ended, s.ended = some ended ∧ call.args = endedOutcome host ended)
    (closing : ∀ rest args, (s.queue.step op).turn = .draining rest args →
      ∃ rest, s.queue.turn = .draining rest args)
    (emptied : s.ended ≠ none → s.queue.entries = [] → (s.queue.step op).entries = []) :
    Tracked host { s with queue := s.queue.step op } (past ++ [event]) where
  sound := tracked.sound.step allowed
  calls := by
    intro call member
    rcases Queue.step_calls op member with old | isNew
    · rcases tracked.calls call old with ⟨key, isKey, replied⟩ | closed
      · exact Or.inl ⟨key, isKey, replied.later event⟩
      · exact Or.inr closed
    · exact made call isNew
  closing := by
    intro rest args turn
    obtain ⟨rest, before⟩ := closing rest args turn
    exact tracked.closing rest args before
  emptied := fun closed => emptied closed (tracked.emptied closed)

theorem Tracked.same (tracked : Tracked host s past) (event : MainEvent) : Tracked host s (past ++ [event]) :=
  { tracked with
    calls := by
      intro call member
      rcases tracked.calls call member with ⟨key, isKey, replied⟩ | closed
      · exact Or.inl ⟨key, isKey, replied.later event⟩
      · exact Or.inr closed }

theorem Tracked.sendMessageToWorker (tracked : Tracked host s past) (callback : Given) :
    Tracked host (s.sendMessageToWorker host callback) (past ++ [.sendMessageToWorker callback]) := by
  unfold MainSide.sendMessageToWorker
  split
  · rename_i ended isEnded
    exact tracked.moved _ (.answer (endedOutcome host ended)) trivial
      (fun call made => Or.inr ⟨ended, isEnded, made.2⟩) (fun rest _ turn => ⟨rest, turn⟩) (fun _ none => none)
  · exact tracked.same _
  · rename_i notEnded
    have open' : ∀ {q : Queue Outcome}, s.ended ≠ none → s.queue.entries = [] → q.entries = [] :=
      fun closed => absurd notEnded closed
    by_cases worker : s.worker
    · rw [if_pos worker]
      exact tracked.moved _ (.request true) trivial (fun _ made => made.elim) (fun rest _ turn => ⟨rest, turn⟩)
        open'
    · rw [if_neg worker]
      exact tracked.moved _ .drop trivial (fun _ made => made.elim) (fun rest _ turn => ⟨rest, turn⟩) open'
  · rename_i notEnded
    split
    · exact tracked.moved _ (.request false) trivial (fun _ made => made.elim)
        (fun rest _ turn => ⟨rest, turn⟩) (fun closed => absurd notEnded closed)
    · exact tracked.same _
  · exact tracked.same _

theorem Tracked.onWorkerMessage (tracked : Tracked host s past) (idle : s.queue.Idle) (msg : Value) :
    Tracked host (s.onWorkerMessage msg) (past ++ [.onWorkerMessage msg]) := by
  unfold MainSide.onWorkerMessage
  split
  · rename_i key outcome isKey isOutcome
    refine tracked.moved _ (.deliver key outcome) idle ?_ ?_ ?_
    · rintro call ⟨named, rfl⟩
      exact Or.inl ⟨key, named, msg, List.mem_append_right _ (List.mem_singleton_self _), isKey, isOutcome⟩
    · intro rest args turn
      exact ⟨rest, Queue.deliver_turn turn⟩
    · intro _ none
      exact (Queue.deliver_entries ..).trans none
  · exact tracked.same _

theorem Tracked.endWith (tracked : Tracked host s past) (idle : s.queue.Idle) (ended : Ended) :
    Tracked host (s.endWith host ended) (past ++ [.endWith ended]) := by
  unfold MainSide.endWith
  split
  · exact tracked.same _
  · rename_i notEnded
    rw [Option.not_isSome_iff_eq_none] at notEnded
    exact
      { sound := tracked.sound.drain idle _
        calls := by
          intro call member
          rcases Queue.step_calls (.drain (endedOutcome host ended)) member with old | isNew
          · rcases tracked.calls call old with ⟨key, isKey, replied⟩ | ⟨_, isEnded, -⟩
            · exact Or.inl ⟨key, isKey, replied.later _⟩
            · cases notEnded.symm.trans isEnded
          · exact Or.inr ⟨ended, rfl, isNew.2⟩
        closing := fun rest args turn => ⟨ended, rfl, Queue.advance_turn turn⟩
        emptied := fun _ => Queue.advance_entries .. }

theorem Tracked.returned (tracked : Tracked host s past) :
    Tracked host (s.step host .returned) (past ++ [.returned]) := by
  refine tracked.moved _ .returned trivial ?_ ?_ ?_
  · -- only a closing goes on with another callback
    rintro call ⟨-, rest, turn⟩
    exact Or.inr (tracked.closing rest call.args turn)
  · intro rest args turn
    exact Queue.returned_turn turn
  · intro _ none
    exact Queue.returned_empty none

theorem Tracked.step (tracked : Tracked host s past) {event : MainEvent} (allowed : event.Allowed s) :
    Tracked host (s.step host event) (past ++ [event]) := by
  cases event with
  | sendMessageToWorker callback => exact tracked.sendMessageToWorker callback
  | onWorkerMessage msg => exact tracked.onWorkerMessage allowed msg
  | endWith ended => exact tracked.endWith allowed ended
  | returned => exact tracked.returned

theorem Tracked.run {events : List MainEvent} (tracked : Tracked host s past) (ordered : s.Ordered host events) :
    Tracked host (s.run host events) (past ++ events) := by
  induction events generalizing s past with
  | nil => simpa using tracked
  | cons event rest ih => simpa using ih (tracked.step ordered.1) ordered.2

theorem ordered_append {before after : List MainEvent} (ordered : s.Ordered host (before ++ after)) :
    s.Ordered host before ∧ (s.run host before).Ordered host after := by
  induction before generalizing s with
  | nil => exact ⟨trivial, ordered⟩
  | cons event rest ih =>
      obtain ⟨first, later⟩ := ih ordered.2
      exact ⟨⟨ordered.1, first⟩, later⟩

/-- What endWith has begun stays so. -/
theorem ended_run {ended : Ended} (events : List MainEvent) (isEnded : s.ended = some ended) :
    (s.run host events).ended = some ended := by
  induction events generalizing s with
  | nil => exact isEnded
  | cons event rest ih =>
      apply ih
      cases event with
      | sendMessageToWorker callback => cases callback <;> simp [MainSide.step, MainSide.sendMessageToWorker, isEnded]
      | onWorkerMessage msg =>
          change (s.onWorkerMessage msg).ended = some ended
          unfold MainSide.onWorkerMessage
          split <;> exact isEnded
      | endWith other => simp [MainSide.step, MainSide.endWith, isEnded]
      | returned => exact isEnded

/-- No step takes a callback out of the hands of an endWith. -/
theorem settles_run {ended : Ended} {args : Outcome} {callback : Nat} {events : List MainEvent}
    (isEnded : s.ended = some ended) (settles : s.queue.Settles args callback) (ordered : s.Ordered host events) :
    (s.run host events).queue.Settles args callback := by
  induction events generalizing s with
  | nil => exact settles
  | cons event rest ih =>
      have kept : (s.step host event).ended = some ended := ended_run [event] isEnded
      apply ih kept _ ordered.2
      cases event with
      | sendMessageToWorker given =>
          cases given with
          | nothing => simpa [MainSide.step, MainSide.sendMessageToWorker, isEnded] using settles
          | value => simpa [MainSide.step, MainSide.sendMessageToWorker, isEnded] using settles
          | function =>
              simp only [MainSide.step, MainSide.sendMessageToWorker, isEnded]
              exact settles.step (.answer _) trivial
      | onWorkerMessage msg =>
          change (s.onWorkerMessage msg).queue.Settles args callback
          unfold MainSide.onWorkerMessage
          split
          · rename_i key outcome _ _
            exact settles.step (.deliver key outcome) ordered.1
          · exact settles
      | endWith other => simpa [MainSide.step, MainSide.endWith, isEnded] using settles
      | returned => exact settles.step .returned trivial

end MainRequests

/-! The worker's requests. -/
section WorkerRequests

variable {q : Queue Outcome} {past : List WorkerEvent}

/-- A reply or a refusal that has come, for the request of that number. -/
def Answered (past : List WorkerEvent) (key : String) (args : Outcome) : Prop :=
  ∃ msg, .onMessage msg ∈ past ∧ (msg.read "msgID").text = some key ∧ answerIn msg = some args

structure WorkerTracked (q : Queue Outcome) (past : List WorkerEvent) : Prop where
  sound : q.Sound
  calls : ∀ call ∈ q.calls, ∃ key, call.key = some key ∧ Answered past key call.args
  closing : ∀ rest args, q.turn ≠ .draining rest args

theorem start_workerTracked : WorkerTracked RequestQueue.empty [] where
  sound := Queue.empty_sound
  calls := by simp [RequestQueue.empty]
  closing := by simp [RequestQueue.empty]

theorem WorkerTracked.moved (tracked : WorkerTracked q past) (event : WorkerEvent) (op : Op Outcome)
    (allowed : op.Allowed q)
    (made : ∀ call, q.Makes op call → ∃ key, call.key = some key ∧ Answered (past ++ [event]) key call.args)
    (closing : ∀ rest args, (q.step op).turn = .draining rest args → ∃ rest, q.turn = .draining rest args) :
    WorkerTracked (q.step op) (past ++ [event]) where
  sound := tracked.sound.step allowed
  calls := by
    intro call member
    rcases Queue.step_calls op member with old | isNew
    · obtain ⟨key, isKey, msg, there, answers⟩ := tracked.calls call old
      exact ⟨key, isKey, msg, List.mem_append_left _ there, answers⟩
    · exact made call isNew
  closing := by
    intro rest args turn
    obtain ⟨rest, before⟩ := closing rest args turn
    exact tracked.closing rest args before

theorem WorkerTracked.same (tracked : WorkerTracked q past) (event : WorkerEvent) :
    WorkerTracked q (past ++ [event]) :=
  { tracked with
    calls := by
      intro call member
      obtain ⟨key, isKey, msg, there, answers⟩ := tracked.calls call member
      exact ⟨key, isKey, msg, List.mem_append_left _ there, answers⟩ }

theorem WorkerTracked.delivered (tracked : WorkerTracked q past) (idle : q.Idle) {msg : Value} {key : String}
    {args : Outcome} (isKey : (msg.read "msgID").text = some key) (answers : answerIn msg = some args) :
    WorkerTracked (q.deliver key args) (past ++ [.onMessage msg]) := by
  refine tracked.moved _ (.deliver key args) idle ?_ ?_
  · rintro call ⟨named, rfl⟩
    exact ⟨key, named, msg, List.mem_append_right _ (List.mem_singleton_self _), isKey, answers⟩
  · intro rest args turn
    exact ⟨rest, Queue.deliver_turn turn⟩

theorem WorkerTracked.replyCase (tracked : WorkerTracked q past) (idle : q.Idle) {outcome : Value → Option Outcome}
    {msg : Value} (reads : answerIn msg = outcome msg) :
    WorkerTracked (replyCase outcome q msg) (past ++ [.onMessage msg]) := by
  unfold AnsweredRequests.replyCase
  split
  · rename_i isKey isOutcome
    exact tracked.delivered idle isKey (reads.trans isOutcome)
  · exact tracked.same _

theorem WorkerTracked.refusalCase (tracked : WorkerTracked q past) (idle : q.Idle) {outcome : Value → Option Outcome}
    {msg : Value} (reads : answerIn msg = outcome msg) :
    WorkerTracked (refusalCase outcome q msg) (past ++ [.onMessage msg]) := by
  unfold AnsweredRequests.refusalCase
  split
  · exact tracked.same _
  · rename_i key isKey
    split
    · exact tracked.moved _ (.discard key) idle (fun _ made => made.elim) (fun rest _ turn => ⟨rest, turn⟩)
    · split
      · rename_i isOutcome
        exact tracked.delivered idle isKey (reads.trans isOutcome)
      · exact tracked.same _

/-- The nine cases read their messages each in its own way. -/
theorem WorkerTracked.onMessage (tracked : WorkerTracked q past) (idle : q.Idle) (msg : Value) :
    WorkerTracked (onMessage q msg) (past ++ [.onMessage msg]) := by
  unfold AnsweredRequests.onMessage
  split
  case h_1 command => exact tracked.refusalCase idle (by simp [answerIn, command])
  case h_2 command => exact tracked.refusalCase idle (by simp [answerIn, command])
  case h_3 command => exact tracked.replyCase idle (by simp [answerIn, command])
  case h_4 command => exact tracked.replyCase idle (by simp [answerIn, command])
  case h_5 command => exact tracked.replyCase idle (by simp [answerIn, command])
  case h_6 command => exact tracked.replyCase idle (by simp [answerIn, command])
  case h_7 command => exact tracked.replyCase idle (by simp [answerIn, command])
  case h_8 command => exact tracked.replyCase idle (by simp [answerIn, command])
  case h_9 => exact tracked.same _

theorem WorkerTracked.step (tracked : WorkerTracked q past) {event : WorkerEvent} (allowed : event.Allowed q) :
    WorkerTracked (workerStep q event) (past ++ [event]) := by
  cases event with
  | sendActiveMessageToParent callback =>
      exact tracked.moved _ (.request callback) trivial (fun _ made => made.elim)
        (fun rest _ turn => ⟨rest, turn⟩)
  | sendWithoutReply =>
      exact tracked.moved _ .skip trivial (fun _ made => made.elim) (fun rest _ turn => ⟨rest, turn⟩)
  | onMessage msg => exact tracked.onMessage allowed msg
  | returned =>
      refine tracked.moved _ .returned trivial ?_ ?_
      · rintro call ⟨-, rest, turn⟩
        exact absurd turn (tracked.closing rest call.args)
      · intro rest args turn
        exact Queue.returned_turn turn

theorem WorkerTracked.run {events : List WorkerEvent} (tracked : WorkerTracked q past)
    (ordered : WorkerOrdered q events) : WorkerTracked (workerRun q events) (past ++ events) := by
  induction events generalizing q past with
  | nil => simpa [workerRun] using tracked
  | cons event rest ih => simpa [workerRun] using ih (tracked.step ordered.1) ordered.2

end WorkerRequests

/-! Both sides. -/
section Requests

/-- What a run of the main thread's side has done with the callbacks of its requests. A callback that endWith found
waiting has been called with the ended code, or endWith is still at it, which `returns` says comes to an end when
callbacks do no more than return. `later` is about the next sendMessageToWorker. -/
structure MainAnswers (host : Host) (start : MainSide) (events : List MainEvent) : Prop where
  once : (start.run host events).queue.called.Nodup
  apart : ((start.run host events).queue.given.filterMap id).Nodup
  own : ∀ call ∈ (start.run host events).queue.calls,
    (∃ id, (start.run host events).queue.given[call.callback]? = some (some id) ∧
      Replied events (toString id) call.args) ∨
    ∃ ended, (start.run host events).ended = some ended ∧ call.args = endedOutcome host ended
  emptied : (start.run host events).ended ≠ none → (start.run host events).queue.entries = []
  settles : ∀ before ended after, events = before ++ .endWith ended :: after → (start.run host before).ended = none →
    ∀ callback ∈ Queue.callbacks (start.run host before).queue.entries,
      (start.run host events).queue.Settles (endedOutcome host ended) callback
  settled : ∀ before ended after, events = before ++ .endWith ended :: after → (start.run host before).ended = none →
    (start.run host events).queue.turn = .idle →
    ∀ callback ∈ Queue.callbacks (start.run host before).queue.entries,
      ⟨callback, none, endedOutcome host ended⟩ ∈ (start.run host events).queue.calls
  returns : ((start.run host events).queue.run
    (List.replicate (start.run host events).queue.remaining .returned)).Idle
  later : ∀ ended, (start.run host events).ended = some ended →
    ((start.run host events).sendMessageToWorker host .function).queue.calls =
      (start.run host events).queue.calls ++
        [⟨(start.run host events).queue.given.length, none, endedOutcome host ended⟩]

structure WorkerAnswers (events : List WorkerEvent) : Prop where
  once : (workerRun empty events).called.Nodup
  apart : ((workerRun empty events).given.filterMap id).Nodup
  own : ∀ call ∈ (workerRun empty events).calls,
    ∃ id, (workerRun empty events).given[call.callback]? = some (some id) ∧ Answered events (toString id) call.args

theorem sound_once {q : Queue Outcome} (sound : q.Sound) : q.called.Nodup := (List.nodup_append.mp sound.once).1

/-- From endWith on. -/
theorem closing_settles {host : Host} {start : MainSide} {before after : List MainEvent} {ended : Ended}
    (ordered : start.Ordered host (before ++ .endWith ended :: after)) (open' : (start.run host before).ended = none)
    {callback : Nat} (waits : callback ∈ Queue.callbacks (start.run host before).queue.entries) :
    (start.run host (before ++ .endWith ended :: after)).queue.Settles (endedOutcome host ended) callback := by
  obtain ⟨-, later⟩ := ordered_append ordered
  have split : start.run host (before ++ .endWith ended :: after) =
      ((start.run host before).step host (.endWith ended)).run host after := by
    simp [MainSide.run]
  have closed : (start.run host before).step host (.endWith ended) =
      { start.run host before with
        ended := some ended
        queue := (start.run host before).queue.drain (endedOutcome host ended) } := by
    simp [MainSide.step, MainSide.endWith, open']
  rw [split]
  apply settles_run _ _ later.2
  · exact ended
  · rw [closed]
  · rw [closed]
    exact Queue.drain_settles _ waits

theorem main_answers {host : Host} {worker : Bool} {events : List MainEvent}
    (ordered : (mainStart worker).Ordered host events) : MainAnswers host (mainStart worker) events := by
  have tracked : Tracked host ((mainStart worker).run host events) events :=
    (start_tracked worker).run ordered
  constructor
  · exact sound_once tracked.sound
  · exact tracked.sound.apart
  · intro call member
    rcases tracked.calls call member with ⟨key, isKey, replied⟩ | closed
    · obtain ⟨id, queued, rfl⟩ := tracked.sound.own call member key isKey
      exact Or.inl ⟨id, queued, replied⟩
    · exact Or.inr closed
  · exact tracked.emptied
  · rintro before ended after rfl open' callback waits
    exact closing_settles ordered open' waits
  · rintro before ended after rfl open' idle callback waits
    rcases closing_settles ordered open' waits with made | ⟨rest, busy, -⟩
    · exact made
    · cases idle.symm.trans busy
  · exact Queue.returns_idle _
  · intro ended isEnded
    simp only [MainSide.sendMessageToWorker, isEnded]
    rfl

theorem worker_answers {events : List WorkerEvent} (ordered : WorkerOrdered empty events) : WorkerAnswers events := by
  have tracked : WorkerTracked (workerRun empty events) events := start_workerTracked.run ordered
  constructor
  · exact sound_once tracked.sound
  · exact tracked.sound.apart
  · intro call member
    obtain ⟨key, isKey, answered⟩ := tracked.calls call member
    obtain ⟨id, queued, rfl⟩ := tracked.sound.own call member key isKey
    exact ⟨id, queued, answered⟩

theorem requests_answered_once (host : Host) (worker : Bool) (events : List MainEvent) (workerEvents : List WorkerEvent)
    (ordered : (mainStart worker).Ordered host events) (workerOrdered : WorkerOrdered empty workerEvents) :
    MainAnswers host (mainStart worker) events ∧ WorkerAnswers workerEvents :=
  ⟨main_answers ordered, worker_answers workerOrdered⟩

/-- Two requests, a reply to the first of them that comes twice, the end, and one request more that the callback of
the second makes; in the worker a request that is refused. -/
theorem two_requests_answered :
    let host : Host :=
      ⟨[], false, true, fun _ => false, fun _ => false, [], fun _ _ => false, Value.text, Value.text⟩
    let reply : Value := .object (some "[object Object]") true [("id", .scalar "0"), ("category", .string "reply")]
    let refusal : Value := .object (some "[object Object]") true
      [("command", .string "rate-limited-reply"), ("msgID", .scalar "0")]
    MainAnswers host (mainStart true)
      [.sendMessageToWorker .function, .sendMessageToWorker .function, .onWorkerMessage reply, .returned,
        .onWorkerMessage reply, .endWith ⟨"MODULE_CRASHED", "camera", "exit code 1"⟩, .sendMessageToWorker .function,
        .returned, .returned] ∧
    WorkerAnswers [.sendActiveMessageToParent true, .onMessage refusal, .returned] := by
  intro host reply refusal
  apply requests_answered_once
  · exact ⟨trivial, trivial, (by decide : Queue.Idle _), trivial, (by decide : Queue.Idle _), (by decide : Queue.Idle _), trivial, trivial, trivial, trivial⟩
  · exact ⟨trivial, (by decide : Queue.Idle _), trivial, trivial⟩

end Requests

end Countinghouse.AnsweredRequests
