import Countinghouse.MainThread
import Countinghouse.TokenBucket

/-!
The message rate of a module worker: onWorkerMessage of lib/worker-message.js on the main
thread, with its bucket of tokens and the bounds on the two commands that the rate does not
count. Numbers and the clock's milliseconds are those of an ordered field: no rounding.
-/

namespace Countinghouse.MessageRate

open MainThread TokenBucket

def maxViolationReports : Nat := 100

/-- The commands that are emitted with `msg.data` and the id. -/
def emitted : List String :=
  ["querydevice", "invokeforeignaction", "devicelog", "rediscommand", "getjobinfo", "peer-channel-request",
    "peer-metering-request"]

inductive Deed where
  /-- Nothing is emitted: no child message, or one whose command is not known or has had its turn. -/
  | aside
  | threw
  /-- `deviceonline` or `jobprogress`, with the message itself. -/
  | announce (event : String)
  | emit (event : String) (data id : Value)
  | peerSelfInvalidate (id : Value)
  /-- `none` is the report that further ones are suppressed. -/
  | sandboxViolation (data : Option Value)
  /-- The refusal, unless postMessage does not take it. -/
  | refused (posted : Option Post)

def Deed.isEmit : Deed → Bool
  | .emit _ _ _ => true
  | _ => false

def Deed.isAnnounce : Deed → Bool
  | .announce _ => true
  | _ => false

/-- Something is emitted that the rate is meant for. -/
def Deed.acts (deed : Deed) : Bool := deed.isEmit || deed.isAnnounce

def Deed.isPeerSelfInvalidate : Deed → Bool
  | .peerSelfInvalidate _ => true
  | _ => false

def Deed.isSandboxViolation : Deed → Bool
  | .sandboxViolation _ => true
  | _ => false

/-- `turn` is history: how often setImmediate has run its callbacks. -/
structure State (R : Type) where
  messageRate : Option R
  rateTokens : R
  rateRefillAt : R
  violationReports : Nat
  selfInvalidateThisTurn : Bool
  turn : Nat

section Messages

variable {R : Type} [Field R] [LinearOrder R]

def State.start (messageRate rateRefillAt : R) : State R := ⟨some messageRate, messageRate, rateRefillAt, 0, false, 0⟩

def isExempt (message : Value) : Bool := rateExempt.any (message.read "command").is

/-- Whether a message is within the rate. -/
def State.admits (s : State R) (now : R) (message : Value) : Bool × State R :=
  match s.messageRate with
  | none => (true, s)
  | some rate =>
      if isExempt message then (true, s)
      else
        let tokens := min rate (s.rateTokens + (now - s.rateRefillAt) * rate / 1000)
        if tokens < 1 then (false, { s with rateTokens := tokens, rateRefillAt := now })
        else (true, { s with rateTokens := tokens - 1, rateRefillAt := now })

def tooMany : Value := .string "too many messages to the main thread (--moduleMessageRate)"

def target (message : Value) : Value := orNull (message.read "data") "targetDeviceID"

def refusal (message id : Value) : Post :=
  if (message.read "command").is "peer-channel-request" then
    .deny none (target message) tooMany (.string "RATE_LIMITED")
  else .rateLimited id

def State.dispatch (s : State R) (message id : Value) : Deed × State R :=
  match message.read "command" with
  | .string "peer-self-invalidate" =>
      if s.selfInvalidateThisTurn then (.aside, s)
      else (.peerSelfInvalidate id, { s with selfInvalidateThisTurn := true })
  | .string "sandbox-violation" =>
      let reports := s.violationReports + 1
      let s := { s with violationReports := reports }
      if maxViolationReports + 1 < reports then (.aside, s)
      else (.sandboxViolation (if maxViolationReports < reports then none else some (message.read "data")), s)
  | .string command => if command ∈ emitted then (.emit command (message.read "data") id, s) else (.aside, s)
  | _ => (.aside, s)

def State.onChild (s : State R) (now : R) (message id : Value) : Deed × State R :=
  let (admitted, s) := s.admits now message
  if admitted then s.dispatch message id
  else (.refused (if (refusal message id).clones then some (refusal message id) else none), s)

def State.onWorkerMessage (s : State R) (now : R) (message : Value) : Deed × State R :=
  match message.member "id" with
  | none => (.threw, s)
  | some id =>
      if id.isNull then (.aside, s)
      else if id.is "deviceonline" then (.announce "deviceonline", s)
      else if id.is "jobprogress" then (.announce "jobprogress", s)
      else if (message.read "category").is "reply" then (.aside, s)
      else if (message.read "category").is "child" then s.onChild now message id
      else (.aside, s)

/-- A message of category child. -/
def isChild (message : Value) : Bool := !(message.read "id").isNull && (message.read "category").is "child"

/-- A message that is emitted by its id, whatever its category. -/
def isAnnounced (message : Value) : Bool := (message.read "id").is "deviceonline" || (message.read "id").is "jobprogress"

/-- A child message that the rate is meant for. -/
def isCounted (message : Value) : Bool := isChild message && !isExempt message

/-- A child message that the bucket is asked about. -/
def isCharged (message : Value) : Bool := isChild message && !isAnnounced message && !isExempt message

inductive Event (R : Type) where
  | message (now : R) (message : Value)
  /-- The callbacks of setImmediate. -/
  | immediate

structure Occurrence (R : Type) where
  time : R
  turn : Nat
  message : Value
  deed : Deed

def State.run (s : State R) : List (Event R) → List (Occurrence R)
  | [] => []
  | .message now message :: rest =>
      let (deed, next) := s.onWorkerMessage now message
      ⟨now, s.turn, message, deed⟩ :: next.run rest
  | .immediate :: rest => State.run { s with selfInvalidateThisTurn := false, turn := s.turn + 1 } rest

def Event.time : Event R → Option R
  | .message now _ => some now
  | .immediate => none

/-- The clock does not go back. -/
def Ticks (s : State R) (events : List (Event R)) : Prop :=
  (s.rateRefillAt :: events.filterMap Event.time).Pairwise (· ≤ ·)

/-- A callback waits for the answer under a number that the worker's counter gave, or calls are queued for the device
that is asked for. -/
def Waiting (message : Value) : Prop :=
  if (message.read "command").is "peer-channel-request" then ∃ deviceID, target message = .string deviceID
  else ∃ number : Nat, message.read "id" = .scalar (toString number)

/-- The refusal goes to that callback, or to the calls queued for that device. -/
def Answers (message : Value) : Post → Prop
  | .deny _ targetDeviceID _ _ =>
      (message.read "command").is "peer-channel-request" = true ∧ targetDeviceID = target message
  | .rateLimited msgID => (message.read "command").is "peer-channel-request" = false ∧ msgID = message.read "id"
  | _ => False

/-- What becomes of a message that may pass. -/
def passed (message : Value) : Deed :=
  match message.read "command" with
  | .string command => if command ∈ emitted then .emit command (message.read "data") (message.read "id") else .aside
  | _ => .aside

/-- A message that may pass is emitted under its command, if there is such a one; one that may not is not, and whoever
waits for it gets a refusal. -/
def Treated (admitted : Bool) (occurrence : Occurrence R) : Prop :=
  if admitted then occurrence.deed = passed occurrence.message
  else
    (∃ posted, occurrence.deed = .refused posted) ∧
      (Waiting occurrence.message → ∃ post, occurrence.deed = .refused (some post) ∧ Answers occurrence.message post)

end Messages

/-! What a message does, seen from its parts. -/
section Dispatch

variable {R : Type} {s : State R} {message id : Value}

theorem member_read (found : message.member "id" = some id) : message.read "id" = id := by
  unfold Value.member at found
  split at found
  · cases found
  · exact Option.some.inj found

theorem refusal_answers (found : message.member "id" = some id) : Answers message (refusal message id) := by
  unfold refusal
  cases asks : (message.read "command").is "peer-channel-request" with
  | true => exact ⟨asks, rfl⟩
  | false => exact ⟨asks, (member_read found).symm⟩

theorem waiting_clones (found : message.member "id" = some id) (waiting : Waiting message) :
    (refusal message id).clones = true := by
  unfold Waiting at waiting
  unfold refusal
  cases asks : (message.read "command").is "peer-channel-request" with
  | true =>
      rw [if_pos asks] at waiting
      obtain ⟨deviceID, same⟩ := waiting
      simp [Post.clones, same, tooMany]
  | false =>
      rw [if_neg (by simp [asks]), member_read found] at waiting
      obtain ⟨number, same⟩ := waiting
      simp [Post.clones, same, Value.clones]

theorem dispatch_keeps (s : State R) (message id : Value) :
    (s.dispatch message id).2.messageRate = s.messageRate ∧ (s.dispatch message id).2.rateTokens = s.rateTokens ∧
      (s.dispatch message id).2.rateRefillAt = s.rateRefillAt ∧ (s.dispatch message id).2.turn = s.turn := by
  unfold State.dispatch
  split
  · split <;> simp
  · dsimp only
    split <;> simp
  · split <;> simp
  · simp

theorem dispatch_turned :
    (s.dispatch message id).2.selfInvalidateThisTurn =
        (s.selfInvalidateThisTurn || (s.dispatch message id).1.isPeerSelfInvalidate) ∧
      ((s.dispatch message id).1.isPeerSelfInvalidate = true → s.selfInvalidateThisTurn = false) := by
  unfold State.dispatch
  split
  · split
    · rename_i turned
      simp [turned, Deed.isPeerSelfInvalidate]
    · rename_i first
      simpa [Deed.isPeerSelfInvalidate] using first
  · dsimp only
    split <;> simp [Deed.isPeerSelfInvalidate]
  · split <;> simp [Deed.isPeerSelfInvalidate]
  · simp [Deed.isPeerSelfInvalidate]

theorem dispatch_reported :
    s.violationReports + (if (s.dispatch message id).1.isSandboxViolation then 1 else 0) ≤
        (s.dispatch message id).2.violationReports ∧
      ((s.dispatch message id).1.isSandboxViolation = true → s.violationReports ≤ maxViolationReports) := by
  unfold State.dispatch
  split
  · split <;> simp [Deed.isSandboxViolation]
  · dsimp only
    split
    · simp [Deed.isSandboxViolation]
    · rename_i below
      exact ⟨by simp [Deed.isSandboxViolation], fun _ => by omega⟩
  · split <;> simp [Deed.isSandboxViolation]
  · simp [Deed.isSandboxViolation]

theorem dispatch_passed (found : message.member "id" = some id) (counted : isExempt message = false) :
    (s.dispatch message id).1 = passed message := by
  unfold State.dispatch passed
  rw [member_read found]
  unfold isExempt at counted
  split
  · rename_i isCommand
    simp [isCommand, rateExempt, Value.is] at counted
  · rename_i isCommand
    simp [isCommand, rateExempt, Value.is] at counted
  · rename_i command _ _ isCommand
    rw [isCommand]
    dsimp only
    split <;> rfl
  · rename_i other
    split
    · rename_i command isCommand
      exact absurd isCommand (other command)
    · rfl

end Dispatch

/-! One message. -/
section Step

variable {R : Type} [Field R] [LinearOrder R] {s : State R} {now : R} {message id : Value}

/-- The main thread's model, told that the message is over the rate, posts the same. -/
theorem main_thread_refuses_as_here (host : Host) (main : MainThread.State) (worker : WorkerId)
    (refused : (s.admits now message).1 = false) :
    MainThread.onChild host main message id worker (s.admits now message).1 = postMessage main worker (refusal message id) := by
  have counted : isExempt message = false := by
    by_contra exempt
    rw [Bool.not_eq_false] at exempt
    unfold State.admits at refused
    cases rate : s.messageRate <;> simp [rate, exempt] at refused
  unfold MainThread.onChild refusal
  rw [refused]
  unfold isExempt at counted
  simp only [counted, Bool.not_false, Bool.and_self, if_true]
  split
  · rfl
  · rfl

/-- What the bucket leaves of the state. -/
theorem admits_keeps (s : State R) (now : R) (message : Value) :
    (s.admits now message).2.messageRate = s.messageRate ∧
      (s.admits now message).2.violationReports = s.violationReports ∧
      (s.admits now message).2.selfInvalidateThisTurn = s.selfInvalidateThisTurn ∧
      (s.admits now message).2.turn = s.turn := by
  unfold State.admits
  split
  · simp
  · split
    · simp
    · dsimp only
      split <;> simp

/-- A message is put aside or announced, and not counted; or it is refused, or dispatched within the rate. -/
theorem message_cases (s : State R) (now : R) (message : Value) :
    (s.onWorkerMessage now message).2 = s ∧ isCharged message = false ∧
        ((s.onWorkerMessage now message).1 = .aside ∨ (s.onWorkerMessage now message).1 = .threw ∨
          isAnnounced message = true ∧ ∃ event, (s.onWorkerMessage now message).1 = .announce event) ∨
      ∃ id, message.member "id" = some id ∧ isChild message = true ∧ isAnnounced message = false ∧
        ((s.admits now message).1 = false ∧ s.onWorkerMessage now message =
            (.refused (if (refusal message id).clones then some (refusal message id) else none), (s.admits now message).2) ∨
          (s.admits now message).1 = true ∧ s.onWorkerMessage now message = (s.admits now message).2.dispatch message id) := by
  unfold State.onWorkerMessage
  cases found : message.member "id" with
  | none =>
      have noId : message.read "id" = .undefined := by
        unfold Value.member at found
        split at found
        · cases message <;> first | rfl | simp_all [Value.isNull]
        · cases found
      exact Or.inl ⟨rfl, by simp [isCharged, isChild, noId, Value.isNull], Or.inr (Or.inl rfl)⟩
  | some id =>
      have isId := member_read found
      dsimp only
      by_cases null : id.isNull = true
      · exact Or.inl ⟨by simp [null], by simp [isCharged, isChild, isId, null], Or.inl (by simp [null])⟩
      by_cases online : id.is "deviceonline" = true
      · exact Or.inl ⟨by simp [null, online], by simp [isCharged, isAnnounced, isId, online],
          Or.inr (Or.inr ⟨by simp [isAnnounced, isId, online], "deviceonline", by simp [null, online]⟩)⟩
      by_cases progress : id.is "jobprogress" = true
      · exact Or.inl ⟨by simp [null, online, progress], by simp [isCharged, isAnnounced, isId, progress],
          Or.inr (Or.inr ⟨by simp [isAnnounced, isId, progress], "jobprogress", by simp [null, online, progress]⟩)⟩
      by_cases child : (message.read "category").is "child" = true
      · have notReply : (message.read "category").is "reply" = false := by
          cases category : message.read "category" <;> simp_all [Value.is]
        refine Or.inr ⟨id, rfl, by simp [isChild, isId, null, child], by simp [isAnnounced, isId, online, progress], ?_⟩
        simp only [null, online, progress, notReply, child, if_true, Bool.false_eq_true, if_false]
        unfold State.onChild
        cases admitted : (s.admits now message).1 with
        | false => exact Or.inl ⟨rfl, by simp [admitted]⟩
        | true => exact Or.inr ⟨rfl, by simp [admitted]⟩
      · exact Or.inl ⟨by simp [null, online, progress, child], by simp [isCharged, isChild, child],
          Or.inl (by simp [null, online, progress, child])⟩

theorem message_keeps (s : State R) (now : R) (message : Value) :
    (s.onWorkerMessage now message).2.messageRate = s.messageRate ∧ (s.onWorkerMessage now message).2.turn = s.turn := by
  obtain ⟨rate, -, -, turn⟩ := admits_keeps s now message
  rcases message_cases s now message with ⟨same, -⟩ | ⟨id, -, -, -, ⟨-, same⟩ | ⟨-, same⟩⟩
  · rw [same]
    exact ⟨rfl, rfl⟩
  · rw [same]
    exact ⟨rate, turn⟩
  · obtain ⟨rate', -, -, turn'⟩ := dispatch_keeps (s.admits now message).2 message id
    rw [same]
    exact ⟨rate'.trans rate, turn'.trans turn⟩

theorem message_turned (s : State R) (now : R) (message : Value) :
    (s.onWorkerMessage now message).2.selfInvalidateThisTurn =
        (s.selfInvalidateThisTurn || (s.onWorkerMessage now message).1.isPeerSelfInvalidate) ∧
      ((s.onWorkerMessage now message).1.isPeerSelfInvalidate = true → s.selfInvalidateThisTurn = false) := by
  obtain ⟨-, -, flag, -⟩ := admits_keeps s now message
  rcases message_cases s now message with
    ⟨same, -, aside | threw | ⟨-, event, announced⟩⟩ | ⟨id, -, -, -, ⟨-, same⟩ | ⟨-, same⟩⟩
  · simp [same, aside, Deed.isPeerSelfInvalidate]
  · simp [same, threw, Deed.isPeerSelfInvalidate]
  · simp [same, announced, Deed.isPeerSelfInvalidate]
  · simp [same, flag, Deed.isPeerSelfInvalidate]
  · rw [same, ← flag]
    exact dispatch_turned

theorem message_reported (s : State R) (now : R) (message : Value) :
    s.violationReports + (if (s.onWorkerMessage now message).1.isSandboxViolation then 1 else 0) ≤
        (s.onWorkerMessage now message).2.violationReports ∧
      ((s.onWorkerMessage now message).1.isSandboxViolation = true → s.violationReports ≤ maxViolationReports) := by
  obtain ⟨-, reports, -, -⟩ := admits_keeps s now message
  rcases message_cases s now message with
    ⟨same, -, aside | threw | ⟨-, event, announced⟩⟩ | ⟨id, -, -, -, ⟨-, same⟩ | ⟨-, same⟩⟩
  · simp [same, aside, Deed.isSandboxViolation]
  · simp [same, threw, Deed.isSandboxViolation]
  · simp [same, announced, Deed.isSandboxViolation]
  · simp [same, reports, Deed.isSandboxViolation]
  · rw [same, ← reports]
    exact dispatch_reported

def State.bucket (s : State R) : Bucket R := ⟨s.rateTokens, s.rateRefillAt⟩

/-- The rate's bucket is a token bucket. -/
theorem admits_bucket {rate : R} (limited : s.messageRate = some rate) (counted : isExempt message = false) :
    ((s.admits now message).1, (s.admits now message).2.bucket) = s.bucket.take rate (rate / 1000) now := by
  unfold State.admits Bucket.take Bucket.filled
  simp only [limited, counted, Bool.false_eq_true, if_false, mul_div_assoc, State.bucket]
  by_cases low : min rate (s.rateTokens + (now - s.rateRefillAt) * (rate / 1000)) < 1 <;> simp [low]

theorem admits_exempt (exempt : isExempt message = true) : s.admits now message = (true, s) := by
  unfold State.admits
  cases s.messageRate <;> simp [exempt]

end Step

/-! What is counted. -/
section Counted

variable {R : Type}

/-- The messages that the rate counts. -/
def charged : Event R → Option R
  | .message now message => if isCharged message then some now else none
  | .immediate => none

/-- A message that the bucket is asked about is acted on. -/
def emits (occurrence : Occurrence R) : Bool := isCharged occurrence.message && occurrence.deed.acts

/-- A child message that the rate is meant for is acted on. -/
def actedOn (occurrence : Occurrence R) : Bool := isCounted occurrence.message && occurrence.deed.acts

/-- No child message has the id of an announcement. -/
def Unannounced (events : List (Event R)) : Prop :=
  ∀ now message, .message now message ∈ events → isChild message = true → isAnnounced message = false

theorem charged_sublist (events : List (Event R)) : (events.filterMap charged).Sublist (events.filterMap Event.time) := by
  induction events with
  | nil => exact List.Sublist.slnil
  | cons e rest ih =>
      cases e with
      | immediate => exact ih
      | message now message =>
          rw [List.filterMap_cons, List.filterMap_cons]
          simp only [charged, Event.time]
          split
          · exact ih.cons now
          · rename_i time isTime
            have same : now = time := by
              split at isTime
              · exact Option.some.inj isTime
              · cases isTime
            exact same ▸ ih.cons_cons now

end Counted

/-! Runs. -/
section Runs

variable {R : Type} [Field R] [LinearOrder R] {s : State R} {rate first last : R}

theorem charged_parts {message : Value} (counted : isCharged message = true) :
    isChild message = true ∧ isAnnounced message = false ∧ isExempt message = false := by
  simpa [isCharged, and_assoc] using counted

/-- The bucket after a message: a token is taken when the rate counts the message. -/
theorem message_bucket (limited : s.messageRate = some rate) (now : R) (message : Value) :
    (s.onWorkerMessage now message).2.bucket =
      if isCharged message then (s.bucket.take rate (rate / 1000) now).2 else s.bucket := by
  have dispatched (t : State R) (id : Value) : (t.dispatch message id).2.bucket = t.bucket := by
    obtain ⟨-, tokens, refill, -⟩ := dispatch_keeps t message id
    rw [State.bucket, tokens, refill, State.bucket]
  have taken : isChild message = true → isAnnounced message = false → (s.admits now message).2.bucket =
      if isCharged message then (s.bucket.take rate (rate / 1000) now).2 else s.bucket := by
    intro child plain
    cases exempt : isExempt message with
    | true => simp [admits_exempt exempt, isCharged, exempt]
    | false => simp [isCharged, child, plain, exempt, ← admits_bucket limited exempt]
  rcases message_cases s now message with
    ⟨same, uncounted, -⟩ | ⟨id, -, child, plain, ⟨-, same⟩ | ⟨-, same⟩⟩
  · simp [same, uncounted]
  · rw [same, ← taken child plain]
  · rw [same, dispatched, taken child plain]

/-- A message that the bucket is asked about passes exactly if there is a token. -/
theorem counted_cases (limited : s.messageRate = some rate) (now : R) {message : Value}
    (counted : isCharged message = true) :
    ∃ id, message.member "id" = some id ∧
      if (s.bucket.take rate (rate / 1000) now).1 then (s.onWorkerMessage now message).1 = passed message
      else (s.onWorkerMessage now message).1 =
        .refused (if (refusal message id).clones then some (refusal message id) else none) := by
  obtain ⟨-, -, notExempt⟩ := charged_parts counted
  have isVerdict : (s.admits now message).1 = (s.bucket.take rate (rate / 1000) now).1 :=
    congrArg Prod.fst (admits_bucket limited notExempt)
  rcases message_cases s now message with
    ⟨-, uncounted, -⟩ | ⟨id, found, -, -, ⟨refused, same⟩ | ⟨admitted, same⟩⟩
  · rw [uncounted] at counted
    cases counted
  · refine ⟨id, found, ?_⟩
    rw [← isVerdict, refused, same]
    simp
  · refine ⟨id, found, ?_⟩
    rw [← isVerdict, admitted, same]
    simpa using dispatch_passed found notExempt

/-- The messages that the bucket is asked about are treated as it says. -/
theorem run_treated (limited : s.messageRate = some rate) (events : List (Event R)) :
    List.Forall₂ Treated (s.bucket.verdicts rate (rate / 1000) (events.filterMap charged))
      ((s.run events).filter fun occurrence => isCharged occurrence.message) := by
  induction events generalizing s with
  | nil => exact List.Forall₂.nil
  | cons e rest ih =>
      cases e with
      | immediate => exact ih (s := { s with selfInvalidateThisTurn := false, turn := s.turn + 1 }) limited
      | message now message =>
          have later := ih (s := (s.onWorkerMessage now message).2) ((message_keeps s now message).1.trans limited)
          rw [message_bucket limited] at later
          unfold State.run
          rw [List.filterMap_cons]
          cases counted : isCharged message with
          | false =>
              simp only [charged, counted, Bool.false_eq_true, if_false] at later ⊢
              rw [List.filter_cons_of_neg (by simp [counted])]
              exact later
          | true =>
              simp only [charged, counted, if_true] at later ⊢
              rw [List.filter_cons_of_pos (by simpa using counted), Bucket.verdicts]
              refine List.Forall₂.cons ?_ later
              obtain ⟨id, found, treated⟩ := counted_cases limited now counted
              unfold Treated
              cases token : (s.bucket.take rate (rate / 1000) now).1 with
              | true =>
                  rw [token, if_pos rfl] at treated
                  rw [if_pos rfl]
                  exact treated
              | false =>
                  rw [token, if_neg Bool.false_ne_true] at treated
                  rw [if_neg Bool.false_ne_true]
                  refine ⟨⟨_, treated⟩, fun waiting => ⟨refusal message id, ?_, refusal_answers found⟩⟩
                  rwa [if_pos (waiting_clones found waiting)] at treated

/-- What is acted on has had a token. -/
theorem emits_admitted (limited : s.messageRate = some rate) (events : List (Event R)) :
    (((s.run events).filter emits).map Occurrence.time).Sublist
      (s.bucket.admitted rate (rate / 1000) (events.filterMap charged)) := by
  induction events generalizing s with
  | nil => exact List.nil_sublist _
  | cons e rest ih =>
      cases e with
      | immediate => exact ih (s := { s with selfInvalidateThisTurn := false, turn := s.turn + 1 }) limited
      | message now message =>
          have later := ih (s := (s.onWorkerMessage now message).2) ((message_keeps s now message).1.trans limited)
          rw [message_bucket limited] at later
          unfold State.run
          rw [List.filterMap_cons]
          cases counted : isCharged message with
          | false =>
              simp only [charged, counted, Bool.false_eq_true, if_false] at later ⊢
              rw [List.filter_cons_of_neg (by simp [emits, counted])]
              exact later
          | true =>
              simp only [charged, counted, if_true] at later ⊢
              obtain ⟨id, -, treated⟩ := counted_cases limited now counted
              rw [Bucket.admitted]
              dsimp only
              cases token : (s.bucket.take rate (rate / 1000) now).1 with
              | true =>
                  rw [if_pos rfl]
                  by_cases acts : (s.onWorkerMessage now message).1.acts = true
                  · rw [List.filter_cons_of_pos (by simp [emits, counted, acts])]
                    exact later.cons_cons now
                  · rw [List.filter_cons_of_neg (by simp [emits, counted, acts])]
                    exact later.cons now
              | false =>
                  rw [token, if_neg Bool.false_ne_true] at treated
                  rw [if_neg Bool.false_ne_true,
                    List.filter_cons_of_neg (by simp [emits, counted, treated, Deed.acts, Deed.isEmit, Deed.isAnnounce])]
                  exact later

/-- Of the reports of violations no more are emitted than the bound leaves. -/
theorem violations_bounded (events : List (Event R)) :
    (s.run events).countP (fun occurrence => occurrence.deed.isSandboxViolation) ≤
      maxViolationReports + 1 - s.violationReports := by
  induction events generalizing s with
  | nil => exact Nat.zero_le _
  | cons e rest ih =>
      cases e with
      | immediate => exact ih (s := { s with selfInvalidateThisTurn := false, turn := s.turn + 1 })
      | message now message =>
          obtain ⟨counted, below⟩ := message_reported s now message
          have later := ih (s := (s.onWorkerMessage now message).2)
          unfold State.run
          rw [List.countP_cons]
          dsimp only
          cases isReport : (s.onWorkerMessage now message).1.isSandboxViolation with
          | false =>
              rw [isReport] at counted
              simp only [Bool.false_eq_true, if_false] at counted ⊢
              omega
          | true =>
              have room := below isReport
              rw [isReport] at counted
              simp only [if_true] at counted ⊢
              omega

def selfInvalidates (turn : Nat) (occurrence : Occurrence R) : Bool :=
  occurrence.deed.isPeerSelfInvalidate && occurrence.turn == turn

/-- In a turn peer-self-invalidate is emitted once, and not again in one where it has been. -/
theorem self_invalidates_once (turn : Nat) (events : List (Event R)) :
    (s.run events).countP (selfInvalidates turn) ≤
      if s.turn < turn ∨ s.turn = turn ∧ s.selfInvalidateThisTurn = false then 1 else 0 := by
  induction events generalizing s with
  | nil => exact Nat.zero_le _
  | cons e rest ih =>
      cases e with
      | immediate =>
          have later := ih (s := { s with selfInvalidateThisTurn := false, turn := s.turn + 1 })
          refine later.trans ?_
          by_cases before : s.turn < turn
          · simp only [before, true_or, if_true]
            split <;> omega
          · have over' : ¬ (s.turn + 1 < turn ∨ s.turn + 1 = turn ∧ false = false) := by omega
            rw [if_neg over']
            exact Nat.zero_le _
      | message now message =>
          obtain ⟨flag, free⟩ := message_turned s now message
          have sameTurn := (message_keeps s now message).2
          have later := ih (s := (s.onWorkerMessage now message).2)
          rw [flag, sameTurn] at later
          unfold State.run
          rw [List.countP_cons]
          cases invalidates : (s.onWorkerMessage now message).1.isPeerSelfInvalidate with
          | false => simpa [selfInvalidates, invalidates] using later
          | true =>
              by_cases here : s.turn = turn
              · simpa [selfInvalidates, invalidates, here, free invalidates] using later
              · simpa [selfInvalidates, invalidates, here] using later

theorem run_message {events : List (Event R)} {occurrence : Occurrence R} (member : occurrence ∈ s.run events) :
    ∃ now, .message now occurrence.message ∈ events := by
  induction events generalizing s with
  | nil => cases member
  | cons e rest ih =>
      cases e with
      | immediate =>
          obtain ⟨now, later⟩ := ih (s := { s with selfInvalidateThisTurn := false, turn := s.turn + 1 }) member
          exact ⟨now, List.mem_cons_of_mem _ later⟩
      | message now message =>
          have first : occurrence ∈ ⟨now, s.turn, message, (s.onWorkerMessage now message).1⟩ ::
            (s.onWorkerMessage now message).2.run rest := member
          rcases List.mem_cons.mp first with isFirst | later
          · exact ⟨now, by simp [isFirst]⟩
          · obtain ⟨time, isLater⟩ := ih later
            exact ⟨time, List.mem_cons_of_mem _ isLater⟩

theorem counted_charged {events : List (Event R)} (unannounced : Unannounced events)
    {occurrence : Occurrence R} (member : occurrence ∈ s.run events) :
    isCounted occurrence.message = isCharged occurrence.message := by
  obtain ⟨now, isMessage⟩ := run_message member
  cases child : isChild occurrence.message with
  | false => simp [isCounted, isCharged, child]
  | true => simp [isCounted, isCharged, child, unannounced now _ isMessage child]

end Runs

/-! The rate in every window. -/
section Windows

variable {R : Type} [Field R] [LinearOrder R] [IsStrictOrderedRing R]

/-- In any window no more messages that the bucket is asked about are acted on than a full bucket and what comes in have
tokens for. -/
theorem charged_within_rate {rate rateRefillAt : R} (positive : 1 ≤ rate) {events : List (Event R)}
    (ticks : Ticks (State.start rate rateRefillAt) events) (first : R) {width : R} (interval : 0 ≤ width) :
    ((((State.start rate rateRefillAt).run events).countP fun occurrence =>
      emits occurrence && decide (Within first (first + width) occurrence.time) : Nat) : R) ≤
        rate + rate * width / 1000 := by
  have sublist := emits_admitted (s := State.start rate rateRefillAt) rfl events
  have ordered : ((State.start rate rateRefillAt).bucket.time :: events.filterMap charged).Pairwise (· ≤ ·) :=
    List.Pairwise.sublist ((charged_sublist events).cons_cons _) ticks
  have room : (0 : R) ≤ rate := le_trans zero_le_one positive
  have gains : 0 ≤ rate / 1000 := div_nonneg room (by norm_num)
  have emitted : ((State.start rate rateRefillAt).run events).countP (fun occurrence =>
      emits occurrence && decide (Within first (first + width) occurrence.time)) =
        ((((State.start rate rateRefillAt).run events).filter emits).map Occurrence.time).countP
          (Within first (first + width) ·) := by
    rw [List.countP_map, List.countP_filter]
    congr 1
    funext occurrence
    exact Bool.and_comm ..
  calc ((((State.start rate rateRefillAt).run events).countP fun occurrence =>
        emits occurrence && decide (Within first (first + width) occurrence.time) : Nat) : R)
      ≤ (((State.start rate rateRefillAt).bucket.admitted rate (rate / 1000) (events.filterMap charged)).countP
          (Within first (first + width) ·) : Nat) := by
        rw [emitted]
        exact Nat.cast_le.mpr sublist.countP_le
    _ ≤ rate + (first + width - first) * (rate / 1000) :=
        admitted_in_window room gains room (le_add_of_nonneg_right interval) ordered
    _ = rate + rate * width / 1000 := by ring

/-- While no child message has the id of an announcement: in `width` milliseconds from any time no more child messages are
acted on than a full bucket and what comes in have tokens for; one with a token is emitted, and one without is refused and
whoever waits for it is told; and the commands that do not count have bounds of their own. -/
theorem message_rate_holds {rate rateRefillAt : R} (positive : 1 ≤ rate) {events : List (Event R)}
    (ticks : Ticks (State.start rate rateRefillAt) events) (unannounced : Unannounced events) :
    (∀ first width, 0 ≤ width →
      ((((State.start rate rateRefillAt).run events).countP fun occurrence =>
        actedOn occurrence && decide (Within first (first + width) occurrence.time) : Nat) : R) ≤
          rate + rate * width / 1000) ∧
      List.Forall₂ Treated ((⟨rate, rateRefillAt⟩ : Bucket R).verdicts rate (rate / 1000) (events.filterMap charged))
        (((State.start rate rateRefillAt).run events).filter fun occurrence => isCounted occurrence.message) ∧
      ((State.start rate rateRefillAt).run events).countP (fun occurrence => occurrence.deed.isSandboxViolation) ≤ 101 ∧
      ∀ turn, ((State.start rate rateRefillAt).run events).countP (selfInvalidates turn) ≤ 1 := by
  have same : ∀ occurrence ∈ (State.start rate rateRefillAt).run events,
      isCounted occurrence.message = isCharged occurrence.message := fun _ member => counted_charged unannounced member
  refine ⟨?_, ?_, violations_bounded events, ?_⟩
  · intro first width interval
    refine le_trans (le_of_eq ?_) (charged_within_rate positive ticks first interval)
    congr 1
    exact List.countP_congr fun occurrence member => by simp [actedOn, emits, same occurrence member]
  · rw [List.filter_congr same]
    exact run_treated (s := State.start rate rateRefillAt) rfl events
  · intro turn
    refine (self_invalidates_once turn events).trans ?_
    split <;> omega

/-- A child message, of a worker that may write what it likes in it. -/
def childMessage (id : Value) (command : String) : Value :=
  .object (some "[object Object]") true [("id", id), ("category", .string "child"), ("command", .string command)]

/-- Three queries at once, at a rate of two. -/
def threeQueries : List (Event ℚ) :=
  [1, 2, 3].map fun number : Nat => .message 0 (childMessage (.scalar (toString number)) "querydevice")

/-- Two are emitted, and the third is told. -/
theorem two_of_three_queries :
    ((State.start (2 : ℚ) 0).run threeQueries).countP
        (fun occurrence => actedOn occurrence && decide (Within 0 (0 + 0) occurrence.time)) ≤ 2 ∧
      List.Forall₂ Treated [true, true, false]
        (((State.start (2 : ℚ) 0).run threeQueries).filter fun occurrence => isCounted occurrence.message) := by
  have ticks : Ticks (State.start (2 : ℚ) 0) threeQueries := by
    simp [Ticks, threeQueries, State.start, Event.time]
  have unannounced : Unannounced threeQueries := by
    intro now message member _
    simp only [threeQueries, List.mem_map, Event.message.injEq] at member
    obtain ⟨number, -, -, rfl⟩ := member
    rfl
  obtain ⟨windows, treated, -⟩ := message_rate_holds (by norm_num) ticks unannounced
  have counted := windows 0 0 le_rfl
  have bound : (2 : ℚ) + 2 * 0 / 1000 = (2 : Nat) := by norm_num
  rw [bound] at counted
  have verdicts : (⟨2, 0⟩ : Bucket ℚ).verdicts 2 (2 / 1000) (threeQueries.filterMap charged) = [true, true, false] := by
    decide +kernel
  rw [verdicts] at treated
  exact ⟨Nat.cast_le.mp counted, treated⟩

/-- Two child messages at once under the id of an announcement, at a rate of one. -/
def twoAnnounced : List (Event ℚ) := List.replicate 2 (.message 0 (childMessage (.string "jobprogress") "querydevice"))

/-- Both are acted on. -/
theorem announced_over_rate : Ticks (State.start (1 : ℚ) 0) twoAnnounced ∧
    ¬ ((((State.start (1 : ℚ) 0).run twoAnnounced).countP fun occurrence =>
      actedOn occurrence && decide (Within 0 (0 + 0) occurrence.time) : Nat) : ℚ) ≤ 1 + 1 * 0 / 1000 := by
  refine ⟨by simp [Ticks, twoAnnounced, State.start, Event.time, List.replicate], ?_⟩
  have twice : ((State.start (1 : ℚ) 0).run twoAnnounced).countP (fun occurrence =>
      actedOn occurrence && decide (Within 0 (0 + 0) occurrence.time)) = 2 := by
    decide +kernel
  rw [twice]
  norm_num

end Windows

end Countinghouse.MessageRate
