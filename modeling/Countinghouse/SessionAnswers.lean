import Mathlib.Data.List.Basic

/-!
lib/session.js, as a call of an action uses it: what is written to the HTTP response, or passed to
the local callback, over the run of one session. A session is handed to a device by the callback
of `setDeviceTimer` and by nothing else, so that a device signals after the timer has been set.

The limiters, the device and the timer report in any order that this leaves open. `JSON.stringify`
is a parameter: it throws on some of the values that a handler may answer with.
-/

namespace Countinghouse.SessionAnswers

/-! Sessions. -/
section Sessions

/-- A CHError or DeviceError. -/
structure Failure where
  topic : String
  code : String
  message : String
  deriving DecidableEq

inductive Body (Data : Type) where
  | failure (err : Failure)
  | withFault (err : Failure) (fault : Data)
  | result (data : Option Data)
  deriving DecidableEq

/-- The error that a local callback is given: the one reported, or a new one with its message. -/
inductive LocalError where
  | reported (err : Failure)
  | error (message : String)
  deriving DecidableEq

inductive Effect (Data : Type) where
  | json (status : Nat) (body : Body Data)
  | localCallback (err : Option LocalError) (data platformMetering : Option Data)
  | recordCall (appKey tool : String)
  deriving DecidableEq

/-- What a session finds around it. -/
structure Host (Data : Type) where
  /-- `JSON.stringify` returns. -/
  stringifies : Data → Bool
  /-- The text of an error code. -/
  message : String → String
  /-- `CHUtil.ci` is there, with a function `recordCall`. -/
  ci : Bool

structure Session where
  /-- `localCallback` is not null. -/
  localCallback : Bool
  appKey : Option String
  meteredTool : Option String
  /-- `timer`, and whether it has `expired`. Its timeout is pending until it has, or is cleared. -/
  timer : Option Bool
  /-- `once` has let a call of `callback` through. -/
  called : Bool
  deriving DecidableEq

/-- What the constructor sets, and the route of an action. -/
def Session.new (localCallback : Bool) (appKey meteredTool : Option String) : Session :=
  ⟨localCallback, appKey, meteredTool, none, false⟩

variable {Data : Type}

def deviceError (host : Host Data) (code : String) : Failure := ⟨"device error", code, host.message code⟩

def Body.stringifies (host : Host Data) : Body Data → Bool
  | .failure _ => true
  | .withFault _ fault => host.stringifies fault
  | .result data => data.all host.stringifies

/-- `res.status(status).json(body)`: the text is made first, and nothing is written when that throws. -/
def json (host : Host Data) (status : Nat) (body : Body Data) : List (Effect Data) :=
  if body.stringifies host then [.json status body] else []

def Session.recordMeteredCall (host : Host Data) (session : Session) : Session × List (Effect Data) :=
  match session.meteredTool, session.appKey with
  | some tool, some appKey =>
      if host.ci then ({ session with meteredTool := none }, [.recordCall appKey tool]) else (session, [])
  | _, _ => (session, [])

def Session.response (host : Host Data) (session : Session) (err : Option Failure) (data : Option Data) :
    Session × List (Effect Data) :=
  match err with
  | some err =>
      match data with
      | some fault => (session, json host 500 (.withFault err fault))
      | none => (session, json host 500 (.failure err))
  | none =>
      let metered := session.recordMeteredCall host
      (metered.1, metered.2 ++ json host 200 (.result data))

def Session.clearDeviceTimer (session : Session) : Session := { session with timer := none }

/-- `Session.prototype.callback` -/
def Session.callback (host : Host Data) (session : Session) (err : Option Failure) (data platformMetering : Option Data) :
    Session × List (Effect Data) :=
  match session.timer with
  | none => (session, [])
  | some true =>
      let session := { session with timer := none }
      match err with
      -- reading `err.message` throws
      | none => (session, [])
      | some err =>
          if session.localCallback then (session, [.localCallback (some (.error err.message)) none none])
          else (session, json host 500 (.failure err))
  | some false =>
      let session := session.clearDeviceTimer
      if session.localCallback then (session, [.localCallback (err.map .reported) data platformMetering])
      else session.response host err data

/-- `once(this.callback.bind(this))` -/
def Session.onceCallback (host : Host Data) (session : Session) (err : Option Failure)
    (data platformMetering : Option Data) : Session × List (Effect Data) :=
  if session.called then (session, [])
  else { session with called := true }.callback host err data platformMetering

def Session.callbackWithoutTimer (host : Host Data) (session : Session) (err : Option Failure) (data : Option Data) :
    Session × List (Effect Data) :=
  if session.localCallback then (session, [.localCallback (err.map .reported) data none])
  else session.response host err data

/-- `installTimer` -/
def Session.setDeviceTimer (session : Session) : Session := { session with timer := some false }

end Sessions

/-! Runs of a session. -/
section Runs

/-- What the callback of a rate limiter is given. -/
inductive Limit where
  /-- An error: the limit is not applied. -/
  | failed
  | limited
  | passed
  deriving DecidableEq

/-- What is asked before an action is invoked, with `none` for a limiter that is not there. -/
structure Checks where
  globalRateLimit : Option Limit
  apiKeyRateLimit : Limit
  /-- The error of `ensureDeviceState`. -/
  deviceState : Option Failure
  deviceRateLimit : Option Limit

inductive Event (Data : Type) where
  /-- `invokeDeviceAction`, up to `invokeAction` -/
  | invoke (checks : Checks)
  /-- `sendInvokeActionMessageToWorker`, which asks no limiter -/
  | hop
  | callback (err : Option Failure) (data platformMetering : Option Data)
  | expired

inductive Phase where
  | idle
  | refused
  /-- A device has the session. -/
  | sent
  deriving DecidableEq

structure State (Data : Type) where
  session : Session
  phase : Phase
  trace : List (Effect Data)

variable {Data : Type}

def State.after (state : State Data) (phase : Phase) (done : Session × List (Effect Data)) : State Data :=
  ⟨done.1, phase, state.trace ++ done.2⟩

/-- What the session is refused with, by `invokeDeviceAction` and then by `onInvokeDeviceAction`. -/
def refusal (host : Host Data) (session : Session) (checks : Checks) : Option Failure :=
  if checks.globalRateLimit = some .limited then some (deviceError host "DENY_DEVICE_ACCESS")
  else if session.appKey.isSome ∧ checks.apiKeyRateLimit = .limited then some (deviceError host "DENY_DEVICE_ACCESS")
  else
    match checks.deviceState with
    | some err => some err
    | none =>
        if checks.deviceRateLimit = some .limited then some (deviceError host "DENY_DEVICE_ACCESS") else none

def step (host : Host Data) (state : State Data) : Event Data → Option (State Data)
  | .invoke checks =>
      if state.phase = .idle then
        match refusal host state.session checks with
        | some err => some (state.after .refused (state.session.callbackWithoutTimer host (some err) none))
        | none => some (state.after .sent (state.session.setDeviceTimer, []))
      else none
  | .hop => if state.phase = .idle then some (state.after .sent (state.session.setDeviceTimer, [])) else none
  | .callback err data platformMetering =>
      if state.phase = .sent then some (state.after .sent (state.session.onceCallback host err data platformMetering))
      else none
  | .expired =>
      -- the timeout is pending
      if state.session.timer = some false then
        some (state.after state.phase ({ state.session with timer := some true }.onceCallback host
          (some (deviceError host "DEVICE_NOT_RESPONDING")) none none))
      else none

def run (host : Host Data) (state : State Data) : List (Event Data) → Option (State Data)
  | [] => some state
  | event :: rest => (step host state event).bind fun next => run host next rest

def start (session : Session) : State Data := ⟨session, .idle, []⟩

end Runs

/-! What a session owes its caller. -/
section Answers

variable {Data : Type}

def Effect.isAnswer : Effect Data → Bool
  | .recordCall _ _ => false
  | _ => true

def Effect.isCharge : Effect Data → Bool
  | .recordCall _ _ => true
  | _ => false

/-- The caller is told that the device is not responding. -/
def Effect.notResponding (host : Host Data) : Effect Data → Bool
  | .json _ (.failure err) | .json _ (.withFault err _) => err.code == "DEVICE_NOT_RESPONDING"
  | .localCallback (some (.reported err)) _ _ => err.code == "DEVICE_NOT_RESPONDING"
  | .localCallback (some (.error message)) _ _ => message == host.message "DEVICE_NOT_RESPONDING"
  | _ => false

/-- A callback of the device or the expiry of the timer. -/
def Event.isSignal : Event Data → Bool
  | .callback _ _ _ | .expired => true
  | _ => false

structure AnswersOnce (host : Host Data) (events : List (Event Data)) (state : State Data) : Prop where
  atMostOnce : state.trace.countP Effect.isAnswer ≤ 1
  answered : state.phase = .sent → (∃ event ∈ events, event.isSignal = true) → state.trace.countP Effect.isAnswer = 1
  final : ∀ before told after, state.trace = before ++ told :: after → told.isAnswer = true →
    told.notResponding host = true → ∀ effect ∈ after, effect.isAnswer = false
  chargedOnce : state.trace.countP Effect.isCharge ≤ 1
  charged : (∃ effect ∈ state.trace, effect.isCharge = true) → ∃ data, Effect.json 200 (.result data) ∈ state.trace

end Answers

/-! What one answer does. -/
section Answering

variable {Data : Type} (host : Host Data)

/-- An answer, with the charge for it if there is one. -/
inductive Told : List (Effect Data) → Prop where
  | answer {effect : Effect Data} (isAnswer : effect.isAnswer = true) : Told [effect]
  | charged (appKey tool : String) (data : Option Data) :
      Told [.recordCall appKey tool, .json 200 (.result data)]

/-- The effects of the first signal after the timer has been set. -/
def heard (session : Session) : Event Data → List (Effect Data)
  | .callback err data platformMetering => (session.setDeviceTimer.onceCallback host err data platformMetering).2
  | .expired =>
      ({ session with timer := some true }.onceCallback host (some (deviceError host "DEVICE_NOT_RESPONDING")) none none).2
  | _ => []

end Answering

/-! What a run has heard and told. -/
section Shapes

variable {Data : Type} (host : Host Data) (session : Session)

/-- A run is opened by one event, and decided by the first signal. -/
inductive Shape : List (Event Data) → State Data → Prop where
  | idle : Shape [] (start session)
  | refused {opening : Event Data} {state : State Data} (unheard : opening.isSignal = false) (isPhase : state.phase = .refused)
      (isTimer : state.session.timer = none) (told : ∃ effect, state.trace = [effect] ∧ effect.isAnswer = true) :
      Shape [opening] state
  | waiting {opening : Event Data} (unheard : opening.isSignal = false) :
      Shape [opening] ⟨session.setDeviceTimer, .sent, []⟩
  | heard {opening signal : Event Data} {state : State Data} (later : List (Event Data)) (unheard : opening.isSignal = false)
      (isSignal : signal.isSignal = true) (isPhase : state.phase = .sent) (isTimer : state.session.timer = none)
      (called : state.session.called = true) (isTrace : state.trace = heard host session signal) :
      Shape (opening :: signal :: later) state

omit session in
theorem response_session (session : Session) (err : Option Failure) (data : Option Data) :
    (session.response host err data).1.timer = session.timer ∧ (session.response host err data).1.called = session.called := by
  cases err with
  | some err => cases data <;> exact ⟨rfl, rfl⟩
  | none =>
      simp only [Session.response, Session.recordMeteredCall]
      split
      · split <;> exact ⟨rfl, rfl⟩
      · exact ⟨rfl, rfl⟩

omit session in
theorem callback_session (session : Session) (err : Option Failure) (data platformMetering : Option Data) :
    (session.callback host err data platformMetering).1.timer = none ∧
      (session.callback host err data platformMetering).1.called = session.called := by
  cases isTimer : session.timer with
  | none => simp [Session.callback, isTimer]
  | some expired =>
      cases expired with
      | true =>
          simp only [Session.callback, isTimer]
          cases err with
          | none => exact ⟨rfl, rfl⟩
          | some err => cases session.localCallback <;> exact ⟨rfl, rfl⟩
      | false =>
          simp only [Session.callback, isTimer]
          split
          · exact ⟨rfl, rfl⟩
          · exact response_session host session.clearDeviceTimer err data

variable {session}

/-- The first signal is heard. -/
theorem once_heard (waiting : Session) (uncalled : waiting.called = false) (err : Option Failure)
    (data platformMetering : Option Data) :
    (waiting.onceCallback host err data platformMetering).1.timer = none ∧
      (waiting.onceCallback host err data platformMetering).1.called = true := by
  simp only [Session.onceCallback, uncalled, Bool.false_eq_true, if_false]
  exact callback_session host { waiting with called := true } err data platformMetering

theorem step_shape (fresh : session.timer = none ∧ session.called = false) {events : List (Event Data)}
    {state next : State Data} {event : Event Data} (shape : Shape host session events state)
    (stepped : step host state event = some next) : Shape host session (events ++ [event]) next := by
  cases shape with
  | idle =>
      cases event with
      | invoke checks =>
          simp only [step, start, if_true] at stepped
          cases isRefusal : refusal host session checks with
          | none =>
              rw [isRefusal] at stepped
              cases stepped
              exact Shape.waiting rfl
          | some err =>
              rw [isRefusal] at stepped
              cases stepped
              refine Shape.refused rfl rfl ?_ ?_ <;> unfold State.after Session.callbackWithoutTimer <;> split
              · exact fresh.1
              · exact fresh.1
              · exact ⟨_, rfl, rfl⟩
              · exact ⟨_, rfl, rfl⟩
      | hop =>
          cases stepped
          exact Shape.waiting rfl
      | callback err data platformMetering => cases stepped
      | expired =>
          simp only [step, start, fresh.1, reduceCtorEq, if_false] at stepped
  | refused unheard isPhase isTimer told =>
      cases event <;> simp [step, isPhase, isTimer] at stepped
  | waiting unheard =>
      cases event with
      | invoke checks => simp [step] at stepped
      | hop => simp [step] at stepped
      | callback err data platformMetering =>
          cases stepped
          have decided := once_heard host session.setDeviceTimer fresh.2 err data platformMetering
          exact Shape.heard [] unheard rfl rfl decided.1 decided.2 rfl
      | expired =>
          cases stepped
          have decided := once_heard host { session with timer := some true } fresh.2
            (some (deviceError host "DEVICE_NOT_RESPONDING")) none none
          exact Shape.heard [] unheard rfl rfl decided.1 decided.2 rfl
  | heard later unheard isSignal isPhase isTimer called isTrace =>
      cases event with
      | invoke checks => simp [step, isPhase] at stepped
      | hop => simp [step, isPhase] at stepped
      | callback err data platformMetering =>
          -- `once` lets no second call through
          simp only [step, isPhase, if_true, Session.onceCallback, called, State.after, List.append_nil] at stepped
          cases stepped
          have kept : Shape host session (_ :: _ :: (later ++ [Event.callback err data platformMetering]))
              ⟨state.session, .sent, state.trace⟩ := .heard _ unheard isSignal rfl isTimer called isTrace
          exact kept
      | expired => simp [step, isTimer] at stepped

theorem run_shape (fresh : session.timer = none ∧ session.called = false) {before events : List (Event Data)}
    {state last : State Data} (shape : Shape host session before state) (reached : run host state events = some last) :
    Shape host session (before ++ events) last := by
  induction events generalizing before state with
  | nil =>
      cases reached
      simpa using shape
  | cons event rest ih =>
      obtain ⟨next, stepped, later⟩ := Option.bind_eq_some_iff.mp reached
      simpa using ih (step_shape host fresh shape stepped) later

end Shapes

/-! Exactly when a session keeps its word. -/
section Exact

variable {Data : Type} (host : Host Data)

theorem told_answers {trace : List (Effect Data)} (told : Told trace) : trace.countP Effect.isAnswer = 1 := by
  cases told with
  | answer isAnswer => simp [isAnswer]
  | charged => rfl

/-- After one answer there is no other. -/
theorem answers_final {trace : List (Effect Data)} (one : trace.countP Effect.isAnswer ≤ 1) {before after : List (Effect Data)}
    {told : Effect Data} (isTrace : trace = before ++ told :: after) (isAnswer : told.isAnswer = true) :
    ∀ effect ∈ after, effect.isAnswer = false := by
  rw [isTrace, List.countP_append, List.countP_cons_of_pos isAnswer] at one
  have none : after.countP Effect.isAnswer = 0 := by omega
  intro effect mem
  simpa using List.countP_eq_zero.mp none effect mem

theorem told_once {trace : List (Effect Data)} (told : Told trace) {events : List (Event Data)} {state : State Data}
    (isTrace : state.trace = trace) : AnswersOnce host events state := by
  obtain ⟨session, phase, _⟩ := state
  cases isTrace
  have one := told_answers told
  refine ⟨by omega, fun _ _ => one, fun before told after isTrace isAnswer _ => answers_final (by omega) isTrace isAnswer, ?_, ?_⟩
  · cases told with
    | @answer effect isAnswer => cases effect <;> simp [Effect.isCharge, Effect.isAnswer] at isAnswer ⊢
    | charged => exact Nat.le_refl 1
  · rintro ⟨effect, mem, isCharge⟩
    cases told with
    | answer isAnswer =>
        rw [List.mem_singleton] at mem
        subst mem
        cases effect <;> simp [Effect.isCharge, Effect.isAnswer] at isAnswer isCharge
    | charged appKey tool data => exact ⟨data, by simp⟩

/-- What a handler answers with; the second is an object with a BigInt in it. -/
inductive Output where
  | object
  | bigInt
  deriving DecidableEq

def unlimited : Checks := ⟨none, .passed, none, some .passed⟩

end Exact

end Countinghouse.SessionAnswers
