import Countinghouse.HandledMessages

/-!
What a worker's messages reach in the main thread: only callbacks that wait and only
workers under which the device was registered, as long as no message names a member of
`Object.prototype` or carries what a handler or `postMessage` throws on.
-/

namespace Countinghouse.RegisteredOnly

open PlainObject MainThread WaitingRequests QueuedCallbacks BrokeredRequests HandledMessages

/-! When a step does what it should. -/
section Condition

variable (host : Host) (s : State)

/-- A reply names no function of `Object.prototype`, and its callback takes it. -/
def replyMeets (message id : Value) (worker : WorkerId) : Prop :=
  ∃ key, id.text = some key ∧
    match get (s.workers worker).msgQueue key with
    | .undefined => True
    | .inherited => key = "__proto__"
    | .own callback => ∃ err, replyError message = some err ∧ callbackMeets host s callback err (message.read "data")

def commandMeets (command : Command) (data id : Value) (worker : WorkerId) : Prop :=
  let loaded := (s.workers worker).loaded = true
  match command with
  | .querydevice => loaded → queryMeets host s data id worker
  | .invokeforeignaction => loaded → foreignMeets host s data id
  | .devicelog => loaded → logMeets host data
  | .rediscommand => loaded → redisMeets host s data id worker
  | .getjobinfo => loaded → jobInfoMeets s data id worker
  | .peerChannelRequest => loaded → requestMeets host s data worker
  | .peerMeteringRequest => loaded → meteringMeets host s data id worker
  | .peerSelfInvalidate => True
  | .sandboxViolation => violationMeets s data worker

def childMeets (message id : Value) (worker : WorkerId) (withinRate : Bool) : Prop :=
  let command := message.read "command"
  let data := message.read "data"
  if !withinRate && !rateExempt.any command.is then
    (if command.is "peer-channel-request" then orNull data "targetDeviceID" else id).clones = true
  else ∀ known, commandOf command = some known → commandMeets host s known data id worker

def messageMeets (message : Value) (worker : WorkerId) (withinRate : Bool) : Prop :=
  let id := message.read "id"
  let loaded := (s.workers worker).loaded = true
  message.isNull = false ∧
    if id.isNull then True
    else if id.is "deviceonline" then loaded → onlineMeets host s (message.read "data") worker
    else if id.is "jobprogress" then loaded → progressMeets (message.read "data")
    else if (message.read "category").is "reply" then replyMeets host s message id worker
    else if (message.read "category").is "child" then childMeets host s message id worker withinRate
    else True

def meets : Event → Prop
  | .receive worker message withinRate => messageMeets host s message worker withinRate
  | .auth place err => err = none → ∀ ask, s.asks[place]? = some ask → passMeets s ask
  | .metered place => ∀ hop data, s.metering[place]? = some (hop, data) → answers s hop → data.clones
  | .served place _ result =>
      ∀ call, s.calls[place]? = some call → (s.workers call.worker).ended = none →
        call.msgID.clones = true ∧ result.clones = true
  | .discovered => ∀ entry ∈ s.notifyDeviceLoad, ∀ query ∈ entry.2, Answerable s query.1 query.2
  | .send worker completes => ∀ err, (s.workers worker).ended = some err → completes (some err) .null
  | .workerEnds worker code message =>
      ∀ key completes, (key, Callback.client completes) ∈ (s.workers worker).msgQueue →
        completes (some (failureOf (code.name, message))) .null
  | _ => True

end Condition

/-! Messages of workers. -/
section Messages

variable {host : Host} {s : State}

theorem onReply_keeps (inv : Inv none (queues s) s) {message id : Value} {worker : WorkerId}
    (meets : replyMeets host s message id worker) : Keeps (onReply host s message id worker) := by
  obtain ⟨key, text, meets⟩ := meets
  simp only [onReply, text]
  split
  next => exact ⟨rfl, inv⟩
  next held =>
    simp only [held] at meets
    simp only [meets, if_true]
    exact ⟨rfl, inv⟩
  next callback held =>
    simp only [held] at meets
    obtain ⟨err, read, meets⟩ := meets
    simp only [read]
    obtain ⟨fine, kept, workers⟩ := callStored_inv inv (lookup_mem (own_lookup held)) meets
    simp only [Ran.andThen, fine, Bool.false_eq_true, if_false]
    refine ⟨rfl, ?_⟩
    have there : queues ((callStored host s worker key callback err (message.read "data")).state.withWorker worker
        fun wm => { wm with msgQueue := deleteKey wm.msgQueue key }) = called (queues s) worker key := by
      funext other
      by_cases same : other = worker
      · subst same
        simp [queues, called, State.withWorker, workers]
      · simp [queues, called, State.withWorker, workers, same]
    simp only [returns]
    rw [there]
    refine registered_inv kept ?_ ?_ (fun _ there => there) kept.base.devices kept.base.channels kept.base.supervisor
      ⟨rfl, rfl, rfl, rfl, rfl, rfl, rfl⟩
    · intro other
      by_cases same : other = worker
      · subst same
        simp [State.withWorker]
      · simp [State.withWorker, same]
    · intro other
      by_cases same : other = worker
      · subst same
        simp [State.withWorker]
      · simp [State.withWorker, same]

theorem emit_keeps (inv : Inv none (queues s) s) {worker : WorkerId} {handler : Ran}
    (keeps : (s.workers worker).loaded = true → Keeps handler) : Keeps (emit s worker handler) := by
  unfold emit
  split
  next loaded => exact keeps loaded
  next => exact ⟨rfl, inv⟩

theorem onCommand_keeps (inv : Inv none (queues s) s) {command : Command} {data id : Value} {worker : WorkerId}
    (meets : commandMeets host s command data id worker) : Keeps (onCommand host s command data id worker) := by
  cases command with
  | querydevice => exact emit_keeps inv fun loaded => queryDeviceForChild_keeps inv (meets loaded)
  | invokeforeignaction => exact emit_keeps inv fun loaded => onInvokeForeignAction_keeps inv (meets loaded)
  | devicelog => exact emit_keeps inv fun loaded => onDeviceLog_keeps inv id (meets loaded)
  | rediscommand => exact emit_keeps inv fun loaded => onRedisCommand_keeps inv (meets loaded)
  | getjobinfo => exact emit_keeps inv fun loaded => onGetJobInfo_keeps inv (meets loaded)
  | peerChannelRequest => exact emit_keeps inv fun loaded => handleRequest_keeps inv (meets loaded)
  | peerMeteringRequest => exact emit_keeps inv fun loaded => handleMeteringRequest_keeps inv (meets loaded)
  | peerSelfInvalidate =>
      simp only [onCommand]
      split
      next => exact ⟨rfl, inv⟩
      next =>
        have once := edited_inv inv worker (fun wm => { wm with selfInvalidateThisTurn := true }) rfl rfl rfl
        exact emit_keeps once fun _ => invalidateWorker_keeps once worker
  | sandboxViolation =>
      have counted := edited_inv inv worker
        (fun wm => { wm with violationReports := wm.violationReports + 1 }) rfl rfl rfl
      simp only [onCommand]
      split
      next below =>
        obtain ⟨present, named⟩ := meets below
        exact onSandboxViolation_keeps counted present named
      next => exact ⟨rfl, counted⟩

theorem onChild_keeps (inv : Inv none (queues s) s) {message id : Value} {worker : WorkerId} {withinRate : Bool}
    (meets : childMeets host s message id worker withinRate) : Keeps (onChild host s message id worker withinRate) := by
  simp only [childMeets] at meets
  simp only [onChild]
  split
  next limited =>
    simp only [limited, if_true] at meets
    split
    next request =>
      simp only [request, if_true] at meets
      exact keeps_post inv (by simp [Post.clones, meets]) trivial
    next other =>
      simp only [other, Bool.false_eq_true, if_false] at meets
      exact keeps_post inv meets trivial
  next free =>
    simp only [free, Bool.false_eq_true, if_false] at meets
    split
    next command known => exact onCommand_keeps inv (meets command known)
    next => exact ⟨rfl, inv⟩

theorem onWorkerMessage_keeps (inv : Inv none (queues s) s) {message : Value} {worker : WorkerId} {withinRate : Bool}
    (meets : messageMeets host s message worker withinRate) :
    Keeps (onWorkerMessage host s message worker withinRate) := by
  obtain ⟨present, meets⟩ := meets
  simp only [onWorkerMessage, Value.member, present, Bool.false_eq_true, if_false]
  split
  next => exact ⟨rfl, inv⟩
  next given =>
    simp only [given, Bool.false_eq_true, if_false] at meets
    split
    next online =>
      simp only [online, if_true] at meets
      exact emit_keeps inv fun loaded => onDeviceOnline_keeps inv (meets loaded)
    next notOnline =>
      simp only [notOnline, Bool.false_eq_true, if_false] at meets
      split
      next progress =>
        simp only [progress, if_true] at meets
        exact emit_keeps inv fun loaded => onJobProgress_keeps inv (meets loaded)
      next notProgress =>
        simp only [notProgress, Bool.false_eq_true, if_false] at meets
        split
        next reply =>
          simp only [reply, if_true] at meets
          exact onReply_keeps inv meets
        next notReply =>
          simp only [notReply, Bool.false_eq_true, if_false] at meets
          split
          next child =>
            simp only [child, if_true] at meets
            exact onChild_keeps inv meets
          next => exact ⟨rfl, inv⟩

end Messages

/-! What else happens in the main thread. -/
section Events

variable {host : Host} {s : State}

theorem closeRevoked_keeps (inv : Inv none (queues s) s) (caller : WorkerId) (callee : Option WorkerId) :
    Keeps (closeRevoked s caller callee) := by
  unfold closeRevoked
  split
  next granted =>
    obtain ⟨worker, rfl⟩ := Option.isSome_iff_exists.mp (inv.base.channels _ granted)
    let closed := { s with channelRegistry := s.channelRegistry.erase (caller, some worker) }
    have quiet : Quiet s closed :=
      { quiet_refl s with channels := fun pair member => Or.inl (List.mem_of_mem_erase member) }
    have told : Calm closed ((postMessage closed caller (.invalidate (some worker))).andThen fun s =>
        postMessage s worker (.invalidate (some caller))) :=
      (post_calm caller (.invalidate (some worker)) rfl trivial).1.andThen
        (post_calm worker (.invalidate (some caller)) rfl trivial).1
    exact keeps_calm inv ⟨told.1, quiet.trans told.2⟩
  next => exact ⟨rfl, inv⟩

end Events

/-! Runs. -/
section Runs

variable {host : Host} {s : State}

theorem fresh_inv : Inv none (queues State.fresh) State.fresh := by
  refine ⟨⟨?_, ?_, ?_, ?_, ?_, ?_, ?_, ?_⟩, ⟨?_, ?_, ?_, ?_, ?_⟩, ?_⟩ <;> simp [State.fresh, queues, Settled]

/-- The states of runs whose steps all meet a condition. -/
inductive Reached (host : Host) (condition : State → Event → Prop) : State → Prop where
  | fresh : Reached host condition State.fresh
  | step {s : State} {event : Event} (before : Reached host condition s) (meets : condition s event) :
      Reached host condition (step host s event).state

/-- A message with a category and a command. -/
def childMessage (command : String) (data : List (String × Value)) : Value :=
  .object (some "") true
    [("id", .scalar "0"), ("category", .string "child"), ("command", .string command),
      ("data", .object (some "") true data)]

def runAll (host : Host) (s : State) (events : List Event) : State :=
  events.foldl (fun s event => (step host s event).state) s

end Runs

end Countinghouse.RegisteredOnly
