import Mathlib.Data.List.Basic

/-!
Direct peer channels: the broker of the main thread, lib/peer-channel-broker.js, and
the workers' side of it in lib/device-manager.js.

Main thread and workers exchange messages that are delivered in order for each worker.
A channel has two ports: `port1` is sent to the caller's worker with its grant, `port2`
to the callee's with an open, and an invoke goes from one to the other. What a port
carries is in no order with the messages of the main thread. Answers of userAuth come
at any time. Workers are known by their ids; a module is free to post on its own port.

Backpressure and timeouts of a channel only delay or drop what it carries, so an invoke
is in flight until it is delivered. Fields under "history" are read by no handler.
-/

namespace Countinghouse.PeerBroker

abbrev WorkerId := Nat
abbrev DeviceId := String
abbrev AppKey := String

def put {α β : Type} [DecidableEq α] (table : α → β) (key : α) (value : β) : α → β :=
  fun other => if other = key then value else table other

section Put

variable {α β : Type} [DecidableEq α] (table : α → β)

@[simp]
theorem put_same (key : α) (value : β) : put table key value key = value := by
  simp [put]

theorem put_other {key other : α} (value : β) (differs : other ≠ key) :
    put table key value other = table other := by
  simp [put, differs]

end Put

inductive Side where
  | caller | callee
  deriving DecidableEq

def Side.other : Side → Side
  | .caller => .callee
  | .callee => .caller

/-- One port of a channel: on its way (or never taken), in a PeerChannel, or closed. -/
inductive Port where
  | transit | held | closed
  deriving DecidableEq

structure Channel where
  caller : WorkerId
  callee : WorkerId
  /-- The caller's end, which has no `onInvoke`. -/
  near : Port
  /-- The callee's end, with the devices its `onInvoke` serves. -/
  far : Port
  allowed : List DeviceId
  /-- History: the device it was opened for. -/
  first : DeviceId
  deriving DecidableEq

structure End where
  chan : Nat
  side : Side
  deriving DecidableEq

inductive DenyCode where
  | DEVICE_NOT_FOUND | PEER_SELF_TARGET | RATE_LIMITED
  /-- MODULE_RESTARTING or MODULE_SUSPENDED -/
  | moduleMissing
  /-- what userAuth answered -/
  | unauthorized
  | workerEnded
  deriving DecidableEq

/-! Messages. The channel of a grant without a port, an allow or an invalidate is
history: the workers go by the ids. -/

inductive ToWorker where
  | grant (targetDeviceID : DeviceId) (targetWorkerId : WorkerId) (port : Bool) (chan : Nat)
  | deny (targetDeviceID : DeviceId) (errCode : DenyCode)
  | open (callerWorkerId : WorkerId) (appKey : AppKey) (targetDeviceID : DeviceId) (chan : Nat)
  | allow (callerWorkerId : WorkerId) (deviceID : DeviceId) (chan id : Nat)
  | invalidate (workerId : WorkerId) (chan : Nat)
  deriving DecidableEq

inductive ToMain where
  | request (targetDeviceID : DeviceId) (appKey : AppKey)
  | selfInvalidate
  /-- The reply to an allow. -/
  | allowed (id : Nat)
  deriving DecidableEq

/-- The port that a message about worker `about` carries. -/
def portOf (about : WorkerId) : ToWorker → Option Nat
  | .grant _ target true chan => if target = about then some chan else none
  | .open caller _ _ chan => if caller = about then some chan else none
  | _ => none

def openOf (about : WorkerId) : ToWorker → Option Nat
  | .open caller _ _ chan => if caller = about then some chan else none
  | _ => none

def nextPort (about : WorkerId) (last : Option Nat) (message : ToWorker) : Option Nat :=
  (portOf about message).or last

def nextOpen (about : WorkerId) (last : Option Nat) (message : ToWorker) : Option Nat :=
  (openOf about message).or last

/-- The worker of a granted device. History: the channel of the grant. -/
structure Route where
  worker : WorkerId
  grant : Nat
  deriving DecidableEq

structure Worker where
  peerDeviceWorkerMap : DeviceId → Option Route
  peerChannels : WorkerId → Option End
  /-- How many calls wait for the grant of a device. -/
  pendingPeerInvokes : DeviceId → Option Nat
  ended : Bool
  /-- History: the channel of the last port and of the last open that came for another
  worker. -/
  lastPort : WorkerId → Option Nat
  lastOpen : WorkerId → Option Nat

/-- An entry of `channelRegistry`. -/
structure Entry where
  caller : WorkerId
  callee : WorkerId
  chan : Nat
  grants : List (AppKey × DeviceId)
  deriving DecidableEq

/-- A userAuth that has not answered. -/
inductive Ask where
  | missing (deviceID : DeviceId) (appKey : AppKey) (caller : WorkerId)
  | request (deviceID : DeviceId) (appKey : AppKey) (caller callee : WorkerId)
  | recheck (caller callee : WorkerId) (chan : Nat) (appKey : AppKey) (deviceID : DeviceId)
  deriving DecidableEq

/-- What the callback of an allow knows. -/
structure Ticket where
  caller : WorkerId
  callee : WorkerId
  deviceID : DeviceId
  chan : Nat
  deriving DecidableEq

/-- History: the call behind an invoke, with the worker it is meant for and the channel
of the grant that the caller had. -/
structure Issue where
  caller : WorkerId
  target : WorkerId
  grant : Nat
  deriving DecidableEq

/-- History: userAuth has passed a request of the caller's for a device of the callee's,
on a channel of the two. -/
structure Success where
  chan : Nat
  appKey : AppKey
  deviceID : DeviceId
  caller : WorkerId
  callee : WorkerId
  deriving DecidableEq

/-- A peer-invoke on its way to one side of a channel. -/
structure Flight where
  chan : Nat
  towards : Side
  deviceID : DeviceId
  issue : Option Issue
  deriving DecidableEq

structure State where
  deviceMap : DeviceId → Option WorkerId
  channelRegistry : List Entry
  asks : List Ask
  recheckInFlight : Nat
  /-- The callbacks of allows, by message id, and the ids that wait for a reply. -/
  tickets : Nat → Ticket
  waiting : List Nat
  nextId : Nat
  /-- Workers the main thread knows to have ended. -/
  gone : WorkerId → Bool
  channels : Nat → Channel
  nextChan : Nat
  workers : WorkerId → Worker
  inbox : WorkerId → List ToWorker
  outbox : WorkerId → List ToMain
  flights : List Flight
  granted : List Success

def State.fresh : State where
  deviceMap := fun _ => none
  channelRegistry := []
  asks := []
  recheckInFlight := 0
  tickets := fun _ => ⟨0, 0, "", 0⟩
  waiting := []
  nextId := 0
  gone := fun _ => false
  channels := fun _ => ⟨0, 0, .transit, .transit, [], ""⟩
  nextChan := 0
  workers := fun _ => ⟨fun _ => none, fun _ => none, fun _ => none, false, fun _ => none, fun _ => none⟩
  inbox := fun _ => []
  outbox := fun _ => []
  flights := []
  granted := []

def State.send (s : State) (worker : WorkerId) (message : ToWorker) : State :=
  { s with inbox := put s.inbox worker (s.inbox worker ++ [message]) }

def State.sendMain (s : State) (worker : WorkerId) (message : ToMain) : State :=
  { s with outbox := put s.outbox worker (s.outbox worker ++ [message]) }

def State.withWorker (s : State) (id : WorkerId) (edit : Worker → Worker) : State :=
  { s with workers := put s.workers id (edit (s.workers id)) }

def State.withChannel (s : State) (chan : Nat) (edit : Channel → Channel) : State :=
  { s with channels := put s.channels chan (edit (s.channels chan)) }

section Edits

variable {γ : Type} (s : State)

theorem send_inbox (worker : WorkerId) (message : ToWorker) (other : WorkerId) :
    (s.send worker message).inbox other = if other = worker then s.inbox other ++ [message] else s.inbox other := by
  by_cases same : other = worker
  · subst same
    simp [State.send]
  · simp [State.send, put_other _ _ same, same]

theorem mem_send_inbox {worker other : WorkerId} {message sent : ToWorker} :
    sent ∈ (s.send worker message).inbox other ↔ sent ∈ s.inbox other ∨ (other = worker ∧ sent = message) := by
  rw [send_inbox]
  split
  next same => simp [same]
  next apart => simp [apart]

/-- What an edit of one worker keeps is kept for all. -/
theorem withWorker_keeps (field : Worker → γ) (id : WorkerId) (edit : Worker → Worker)
    (keeps : field (edit (s.workers id)) = field (s.workers id)) (other : WorkerId) :
    field ((s.withWorker id edit).workers other) = field (s.workers other) := by
  by_cases same : other = id
  · subst same
    simpa [State.withWorker] using keeps
  · simp [State.withWorker, put_other _ _ same]

@[simp]
theorem withChannel_same (chan : Nat) (edit : Channel → Channel) :
    (s.withChannel chan edit).channels chan = edit (s.channels chan) := by
  simp [State.withChannel]

theorem withChannel_other {chan other : Nat} (edit : Channel → Channel) (differs : other ≠ chan) :
    (s.withChannel chan edit).channels other = s.channels other := by
  simp [State.withChannel, put_other _ _ differs]

theorem withChannel_keeps (field : Channel → γ) (chan : Nat) (edit : Channel → Channel)
    (keeps : field (edit (s.channels chan)) = field (s.channels chan)) (other : Nat) :
    field ((s.withChannel chan edit).channels other) = field (s.channels other) := by
  by_cases same : other = chan
  · subst same
    simpa using keeps
  · rw [withChannel_other s edit same]

end Edits

/-! The ends of a channel. -/
section Ends

def Channel.port (channel : Channel) : Side → Port
  | .caller => channel.near
  | .callee => channel.far

def Channel.setPort (channel : Channel) (side : Side) (port : Port) : Channel :=
  match side with
  | .caller => { channel with near := port }
  | .callee => { channel with far := port }

theorem Channel.setPort_port (channel : Channel) (side other : Side) (port : Port) :
    (channel.setPort side port).port other = if other = side then port else channel.port other := by
  cases side <;> cases other <;> rfl

/-- Nothing but a port changes. -/
theorem Channel.setPort_keeps {γ : Type} (field : Channel → γ) (channel : Channel) (side : Side) (port : Port)
    (near : ∀ near, field { channel with near := near } = field channel)
    (far : ∀ far, field { channel with far := far } = field channel) :
    field (channel.setPort side port) = field channel := by
  cases side with
  | caller => exact near port
  | callee => exact far port

def State.withPort (s : State) (chan : Nat) (side : Side) (port : Port) : State :=
  s.withChannel chan fun channel => channel.setPort side port

theorem withPort_keeps {γ : Type} (s : State) (chan : Nat) (side : Side) (port : Port) (field : Channel → γ)
    (near : ∀ channel near, field { channel with near := near } = field channel)
    (far : ∀ channel far, field { channel with far := far } = field channel) (other : Nat) :
    field ((s.withPort chan side port).channels other) = field (s.channels other) := by
  apply withChannel_keeps
  exact Channel.setPort_keeps field _ side port (near _) (far _)

theorem withPort_port (s : State) (chan : Nat) (side : Side) (port : Port) (other : Nat) (otherSide : Side) :
    ((s.withPort chan side port).channels other).port otherSide =
      if other = chan ∧ otherSide = side then port else (s.channels other).port otherSide := by
  by_cases same : other = chan
  · subst same
    simp [State.withPort, State.withChannel, Channel.setPort_port]
  · simp [State.withPort, State.withChannel, put_other _ _ same, same]

/-- The worker that holds a side. -/
def Channel.owner (channel : Channel) : Side → WorkerId
  | .caller => channel.caller
  | .callee => channel.callee

def State.port (s : State) (e : End) : Port := (s.channels e.chan).port e.side

def State.owner (s : State) (e : End) : WorkerId := (s.channels e.chan).owner e.side

/-- The `workerId` of a PeerChannel: the other side's. -/
def State.peer (s : State) (e : End) : WorkerId := (s.channels e.chan).owner e.side.other

/-- The worker uses an end for another worker. -/
def State.adopt (s : State) (w other : WorkerId) (e : End) : State :=
  s.withWorker w fun worker => { worker with peerChannels := put worker.peerChannels other (some e) }

theorem adopt_peerChannels (s : State) (w other : WorkerId) (e : End) (v about : WorkerId) :
    ((s.adopt w other e).workers v).peerChannels about =
      if v = w ∧ about = other then some e else (s.workers v).peerChannels about := by
  by_cases same : v = w
  · subst same
    simp [State.adopt, State.withWorker, put]
  · simp [State.adopt, State.withWorker, put_other _ _ same, same]

theorem adopt_keeps {γ : Type} (s : State) (w other : WorkerId) (e : End) (field : Worker → γ)
    (keeps : ∀ worker table, field { worker with peerChannels := table } = field worker) (v : WorkerId) :
    field ((s.adopt w other e).workers v) = field (s.workers v) :=
  withWorker_keeps s field w _ (keeps _ _) v

/-- `invalidate` of a PeerChannel, with its `onClose`: the worker forgets the channel
unless it has another one by now. -/
def invalidate (s : State) (e : End) : State :=
  if s.port e = .closed then s
  else
    let shut := s.withPort e.chan e.side .closed
    if (s.workers (s.owner e)).peerChannels (s.peer e) = some e then
      shut.withWorker (s.owner e) fun worker =>
        { worker with peerChannels := put worker.peerChannels (s.peer e) none }
    else shut

/-- What an invalidated end leaves of a worker. -/
structure Unlinks (e : End) (before after : Worker) : Prop where
  peerDeviceWorkerMap : after.peerDeviceWorkerMap = before.peerDeviceWorkerMap
  ended : after.ended = before.ended
  lastPort : after.lastPort = before.lastPort
  lastOpen : after.lastOpen = before.lastOpen
  peerChannels : ∀ other, after.peerChannels other = before.peerChannels other ∨
    (after.peerChannels other = none ∧ before.peerChannels other = some e)

theorem unlinks_refl (e : End) (worker : Worker) : Unlinks e worker worker :=
  ⟨rfl, rfl, rfl, rfl, fun _ => Or.inl rfl⟩

theorem invalidate_spec (s : State) (e : End) :
    (s.port e = .closed ∧ invalidate s e = s) ∨
      ∃ workers, invalidate s e = { s.withPort e.chan e.side .closed with workers := workers } ∧
        ∀ w, Unlinks e (s.workers w) (workers w) := by
  by_cases shut : s.port e = .closed
  · exact Or.inl ⟨shut, by simp [invalidate, shut]⟩
  · refine Or.inr ⟨(invalidate s e).workers, ?_, ?_⟩
    · simp only [invalidate, if_neg shut]
      split <;> rfl
    · intro w
      simp only [invalidate, if_neg shut]
      split
      next inUse =>
        by_cases same : w = s.owner e
        · subst same
          constructor <;> simp only [State.withWorker, put_same] <;> try rfl
          intro other
          by_cases about : other = s.peer e
          · subst about
            exact Or.inr ⟨put_same _ _ _, inUse⟩
          · exact Or.inl (put_other _ _ about)
        · simp only [State.withWorker, put_other _ _ same]
          exact unlinks_refl e _
      next => exact unlinks_refl e _

/-- `invoke` of a PeerChannel; on a closed one the callback gets PEER_GONE at once. -/
def invoke (s : State) (worker : WorkerId) (route : Route) (deviceID : DeviceId) (e : End) : State :=
  if s.port e = .closed then s
  else
    { s with flights := s.flights ++
        [⟨e.chan, e.side.other, deviceID, some ⟨worker, route.worker, route.grant⟩⟩] }

end Ends

/-! The worker's side. -/
section Workers

variable (s : State) (w : WorkerId)

def invokeActionViaPeerChannel (deviceID : DeviceId) (appKey : AppKey) : State :=
  let worker := s.workers w
  let broker : State :=
    match worker.pendingPeerInvokes deviceID with
    | none =>
        (s.withWorker w fun worker =>
          { worker with pendingPeerInvokes := put worker.pendingPeerInvokes deviceID (some 1) }).sendMain w
          (.request deviceID appKey)
    | some count =>
        s.withWorker w fun worker =>
          { worker with pendingPeerInvokes := put worker.pendingPeerInvokes deviceID (some (count + 1)) }
  match worker.peerDeviceWorkerMap deviceID with
  | none => broker
  | some route =>
      match worker.peerChannels route.worker with
      | none => broker
      | some e => if s.port e = .closed then broker else invoke s w route deviceID e

def invokeTimes (route : Route) (deviceID : DeviceId) (e : End) : Nat → State → State
  | 0, s => s
  | count + 1, s => invokeTimes route deviceID e count (invoke s w route deviceID e)

/-- Without a worker or a channel the waiting calls get an error. -/
def flushPendingPeerInvokes (deviceID : DeviceId) (target : Option Route) : State :=
  match (s.workers w).pendingPeerInvokes deviceID with
  | none => s
  | some count =>
      let rest := s.withWorker w fun worker =>
        { worker with pendingPeerInvokes := put worker.pendingPeerInvokes deviceID none }
      match target with
      | none => rest
      | some route =>
          match (s.workers w).peerChannels route.worker with
          | none => rest
          | some e => invokeTimes w route deviceID e count rest

/-- The workers change in nothing but the calls that wait. -/
def WaitsOnly (before after : WorkerId → Worker) : Prop :=
  ∀ w, after w = { before w with pendingPeerInvokes := (after w).pendingPeerInvokes }

theorem waits_only_refl (workers : WorkerId → Worker) : WaitsOnly workers workers := fun _ => rfl

theorem waits_only_withWorker (d : DeviceId) (count : Option Nat) :
    WaitsOnly s.workers (s.withWorker w fun worker =>
      { worker with pendingPeerInvokes := put worker.pendingPeerInvokes d count }).workers := by
  intro other
  by_cases same : other = w
  · subst same
    simp [State.withWorker]
  · simp [State.withWorker, put_other _ _ same]

/-- The peer-invoke that `invoke` sends. -/
def issued (route : Route) (deviceID : DeviceId) (e : End) : Flight :=
  ⟨e.chan, e.side.other, deviceID, some ⟨w, route.worker, route.grant⟩⟩

/-- A call goes out on the channel of the device's worker, or waits for a grant. -/
theorem call_spec (d : DeviceId) (appKey : AppKey) :
    (∃ route e, (s.workers w).peerDeviceWorkerMap d = some route ∧
      (s.workers w).peerChannels route.worker = some e ∧ s.port e ≠ .closed ∧
      invokeActionViaPeerChannel s w d appKey = { s with flights := s.flights ++ [issued w route d e] }) ∨
    (∃ workers outbox, WaitsOnly s.workers workers ∧ (workers w).pendingPeerInvokes d ≠ none ∧
      (∀ v, outbox v = s.outbox v ∨ outbox v = s.outbox v ++ [.request d appKey]) ∧
      ((s.workers w).pendingPeerInvokes d = none → outbox w = s.outbox w ++ [.request d appKey]) ∧
      invokeActionViaPeerChannel s w d appKey = { s with workers := workers, outbox := outbox }) := by
  have broker : ∃ workers outbox, WaitsOnly s.workers workers ∧ (workers w).pendingPeerInvokes d ≠ none ∧
      (∀ v, outbox v = s.outbox v ∨ outbox v = s.outbox v ++ [.request d appKey]) ∧
      ((s.workers w).pendingPeerInvokes d = none → outbox w = s.outbox w ++ [.request d appKey]) ∧
      (match (s.workers w).pendingPeerInvokes d with
        | none =>
            (s.withWorker w fun worker =>
              { worker with pendingPeerInvokes := put worker.pendingPeerInvokes d (some 1) }).sendMain w
              (.request d appKey)
        | some count =>
            s.withWorker w fun worker =>
              { worker with pendingPeerInvokes := put worker.pendingPeerInvokes d (some (count + 1)) }) =
        { s with workers := workers, outbox := outbox } := by
    cases waiting : (s.workers w).pendingPeerInvokes d with
    | none =>
        refine ⟨_, _, waits_only_withWorker s w d (some 1), ?_, ?_, ?_, rfl⟩
        · simp [State.withWorker]
        · intro v
          by_cases same : v = w
          · subst same
            exact Or.inr (put_same _ _ _)
          · exact Or.inl (put_other _ _ same)
        · intro _
          exact put_same _ _ _
    | some count =>
        refine ⟨_, s.outbox, waits_only_withWorker s w d (some (count + 1)), ?_, ?_, ?_, rfl⟩
        · simp [State.withWorker]
        · exact fun _ => Or.inl rfl
        · intro none
          cases none
  cases known : (s.workers w).peerDeviceWorkerMap d with
  | none =>
      right
      simpa only [invokeActionViaPeerChannel, known] using broker
  | some route =>
      cases inUse : (s.workers w).peerChannels route.worker with
      | none =>
          right
          simpa only [invokeActionViaPeerChannel, known, inUse] using broker
      | some e =>
          by_cases shut : s.port e = .closed
          · right
            simpa only [invokeActionViaPeerChannel, known, inUse, if_pos shut] using broker
          · left
            exact ⟨route, e, rfl, inUse, shut, by
              simp only [invokeActionViaPeerChannel, known, inUse, if_neg shut, invoke]
              rfl⟩

theorem invokeTimes_spec (route : Route) (d : DeviceId) (e : End) (count : Nat) (s : State) :
    ∃ flights, invokeTimes w route d e count s = { s with flights := flights } ∧
      ∀ flight ∈ flights, flight ∈ s.flights ∨ (s.port e ≠ .closed ∧ flight = issued w route d e) := by
  induction count generalizing s with
  | zero => exact ⟨s.flights, rfl, fun _ member => Or.inl member⟩
  | succ count ih =>
      by_cases shut : s.port e = .closed
      · have same : invoke s w route d e = s := by simp [invoke, shut]
        simpa only [invokeTimes, same] using ih s
      · have sent : invoke s w route d e = { s with flights := s.flights ++ [issued w route d e] } := by
          simp only [invoke, if_neg shut]
          rfl
        obtain ⟨flights, same, each⟩ := ih { s with flights := s.flights ++ [issued w route d e] }
        refine ⟨flights, by simp only [invokeTimes, sent, same], ?_⟩
        intro flight member
        rcases each flight member with old | new
        · rcases List.mem_append.mp old with older | last
          · exact Or.inl older
          · exact Or.inr ⟨shut, List.mem_singleton.mp last⟩
        · exact Or.inr new

theorem flush_spec (d : DeviceId) (target : Option Route) :
    ∃ workers flights, WaitsOnly s.workers workers ∧
      flushPendingPeerInvokes s w d target = { s with workers := workers, flights := flights } ∧
      ∀ flight ∈ flights, flight ∈ s.flights ∨ ((s.workers w).pendingPeerInvokes d ≠ none ∧
        ∃ route e, target = some route ∧ (s.workers w).peerChannels route.worker = some e ∧
          s.port e ≠ .closed ∧ flight = issued w route d e) := by
  cases waiting : (s.workers w).pendingPeerInvokes d with
  | none =>
      refine ⟨s.workers, s.flights, waits_only_refl _, ?_, fun _ member => Or.inl member⟩
      simp only [flushPendingPeerInvokes, waiting]
  | some count =>
      have only := waits_only_withWorker s w d none
      cases target with
      | none =>
          refine ⟨_, s.flights, only, ?_, fun _ member => Or.inl member⟩
          simp only [flushPendingPeerInvokes, waiting]
          rfl
      | some route =>
          cases inUse : (s.workers w).peerChannels route.worker with
          | none =>
              refine ⟨_, s.flights, only, ?_, fun _ member => Or.inl member⟩
              simp only [flushPendingPeerInvokes, waiting, inUse]
              rfl
          | some e =>
              obtain ⟨flights, same, each⟩ := invokeTimes_spec w route d e count
                (s.withWorker w fun worker =>
                  { worker with pendingPeerInvokes := put worker.pendingPeerInvokes d none })
              refine ⟨_, flights, only, ?_, ?_⟩
              · simp only [flushPendingPeerInvokes, waiting, inUse, same]
                rfl
              · intro flight member
                rcases each flight member with old | new
                · exact Or.inl old
                · exact Or.inr ⟨by simp, route, e, rfl, inUse, new⟩

/-- The worker has no open channel under that id. -/
def noLive (other : WorkerId) : Bool :=
  match (s.workers w).peerChannels other with
  | none => true
  | some e => s.port e = .closed

/-- The worker learns which worker has a device. -/
def State.withRoute (deviceID : DeviceId) (route : Route) : State :=
  s.withWorker w fun worker =>
    { worker with peerDeviceWorkerMap := put worker.peerDeviceWorkerMap deviceID (some route) }

theorem withRoute_keeps {γ : Type} (d : DeviceId) (route : Route) (field : Worker → γ)
    (keeps : ∀ worker table, field { worker with peerDeviceWorkerMap := table } = field worker) (v : WorkerId) :
    field ((s.withRoute w d route).workers v) = field (s.workers v) :=
  withWorker_keeps s field w _ (keeps _ _) v

theorem withRoute_route (d : DeviceId) (route : Route) (v : WorkerId) (other : DeviceId) :
    ((s.withRoute w d route).workers v).peerDeviceWorkerMap other =
      if v = w ∧ other = d then some route else (s.workers v).peerDeviceWorkerMap other := by
  by_cases same : v = w
  · subst same
    simp [State.withRoute, State.withWorker, put]
  · simp [State.withRoute, State.withWorker, put_other _ _ same, same]

theorem noLive_withRoute (d : DeviceId) (route : Route) (other : WorkerId) :
    noLive (s.withRoute w d route) w other = noLive s w other := by
  have same := withRoute_keeps s w d route (·.peerChannels) (fun _ _ => rfl) w
  simp only [noLive, same]
  rfl

def onPeerChannelGrant (deviceID : DeviceId) (target : WorkerId) (port : Bool) (chan : Nat) : State :=
  let mapped := s.withRoute w deviceID ⟨target, chan⟩
  let wrapped :=
    if port && noLive s w target then
      (mapped.withPort chan .caller .held).adopt w target ⟨chan, .caller⟩
    else mapped
  flushPendingPeerInvokes wrapped w deviceID (some ⟨target, chan⟩)

def onPeerChannelDeny (deviceID : DeviceId) : State := flushPendingPeerInvokes s w deviceID none

def onPeerChannelOpen (caller : WorkerId) (deviceID : DeviceId) (chan : Nat) : State :=
  (s.withChannel chan fun channel => { channel with far := .held, allowed := [deviceID] }).adopt w caller
    ⟨chan, .callee⟩

/-- Only a callee's end has `allowedDevices`. The reply goes out in any case. -/
def onPeerChannelAllow (caller : WorkerId) (deviceID : DeviceId) (id : Nat) : State :=
  let added :=
    match (s.workers w).peerChannels caller with
    | some ⟨chan, .callee⟩ =>
        s.withChannel chan fun channel => { channel with allowed := deviceID :: channel.allowed }
    | _ => s
  added.sendMain w (.allowed id)

def onPeerInvalidate (other : WorkerId) : State :=
  match (s.workers w).peerChannels other with
  | none => s
  | some e => invalidate s e

/-- The worker takes the first message of its inbox. -/
def State.taken (message : ToWorker) (rest : List ToWorker) : State :=
  { s with
    inbox := put s.inbox w rest
    workers := put s.workers w
      { s.workers w with
        lastPort := fun about => nextPort about ((s.workers w).lastPort about) message
        lastOpen := fun about => nextOpen about ((s.workers w).lastOpen about) message } }

/-- The rest of a worker is as before. -/
theorem taken_keeps {γ : Type} (field : Worker → γ) (message : ToWorker) (rest : List ToWorker)
    (keeps : ∀ worker lastPort lastOpen,
      field { worker with lastPort := lastPort, lastOpen := lastOpen } = field worker)
    (other : WorkerId) :
    field ((s.taken w message rest).workers other) = field (s.workers other) := by
  by_cases same : other = w
  · subst same
    simpa [State.taken] using keeps (s.workers other) _ _
  · simp [State.taken, put_other _ _ same]

def onMessage : ToWorker → State
  | .grant deviceID target port chan => onPeerChannelGrant s w deviceID target port chan
  | .deny deviceID _ => onPeerChannelDeny s w deviceID
  | .open caller _ deviceID chan => onPeerChannelOpen s w caller deviceID chan
  | .allow caller deviceID _ id => onPeerChannelAllow s w caller deviceID id
  | .invalidate other _ => onPeerInvalidate s w other

def handleNext : State :=
  match s.inbox w with
  | [] => s
  | message :: rest => if (s.workers w).ended then s else onMessage (s.taken w message rest) w message

end Workers

/-! The main thread. -/
section Broker

variable (s : State)

def State.deny (caller : WorkerId) (deviceID : DeviceId) (errCode : DenyCode) : State :=
  s.send caller (.deny deviceID errCode)

def entryFor (caller callee : WorkerId) : Option Entry :=
  s.channelRegistry.find? fun entry => entry.caller = caller && entry.callee = callee

/-- A new channel for a pair. A port sent to a worker that has ended is closed. -/
def openChannel (deviceID : DeviceId) (appKey : AppKey) (caller callee : WorkerId) : State :=
  let chan := s.nextChan
  let portFor (worker : WorkerId) : Port := if (s.workers worker).ended then .closed else .transit
  let made : State :=
    { s with
      channels := put s.channels chan ⟨caller, callee, portFor caller, portFor callee, [], deviceID⟩
      nextChan := chan + 1
      channelRegistry := s.channelRegistry ++ [⟨caller, callee, chan, [(appKey, deviceID)]⟩]
      granted := s.granted ++ [⟨chan, appKey, deviceID, caller, callee⟩] }
  (made.send callee (.open caller appKey deviceID chan)).send caller (.grant deviceID callee true chan)

/-- A further device on a channel: the callee learns it first. -/
def allowDevice (deviceID : DeviceId) (appKey : AppKey) (entry : Entry) : State :=
  let noted : State :=
    { s with
      channelRegistry := s.channelRegistry.map fun other =>
        if other = entry then { other with grants := other.grants.insert (appKey, deviceID) } else other
      granted := s.granted ++ [⟨entry.chan, appKey, deviceID, entry.caller, entry.callee⟩] }
  if s.gone entry.callee then noted.deny entry.caller deviceID .workerEnded
  else
    { noted.send entry.callee (.allow entry.caller deviceID entry.chan s.nextId) with
      tickets := put s.tickets s.nextId ⟨entry.caller, entry.callee, deviceID, entry.chan⟩
      waiting := s.waiting ++ [s.nextId]
      nextId := s.nextId + 1 }

def grant (deviceID : DeviceId) (appKey : AppKey) (caller callee : WorkerId) : State :=
  match entryFor s caller callee with
  | some entry => allowDevice s deviceID appKey entry
  | none => openChannel s deviceID appKey caller callee

/-- `known`: a missing device belongs to a module that is restarting or suspended. -/
def handleRequest (deviceID : DeviceId) (appKey : AppKey) (caller : WorkerId) (known : Bool) : State :=
  match s.deviceMap deviceID with
  | none =>
      if known then { s with asks := s.asks ++ [.missing deviceID appKey caller] }
      else s.deny caller deviceID .DEVICE_NOT_FOUND
  | some callee =>
      if callee = caller then s.deny caller deviceID .PEER_SELF_TARGET
      else { s with asks := s.asks ++ [.request deviceID appKey caller callee] }

def recheckGrants : State :=
  if 0 < s.recheckInFlight then s
  else
    let checks := s.channelRegistry.flatMap fun entry =>
      entry.grants.map fun grant => Ask.recheck entry.caller entry.callee entry.chan grant.1 grant.2
    { s with asks := s.asks ++ checks, recheckInFlight := checks.length }

def closeRevoked (caller callee : WorkerId) (chan : Nat) : State :=
  match entryFor s caller callee with
  | none => s
  | some entry =>
      if entry.chan = chan then
        let dropped : State :=
          { s with channelRegistry := s.channelRegistry.filter fun other =>
              !(other.caller = caller && other.callee = callee) }
        (dropped.send caller (.invalidate callee chan)).send callee (.invalidate caller chan)
      else s

def involves (worker : WorkerId) (entry : Entry) : Bool := entry.caller = worker || entry.callee = worker

/-- The other worker of each of a worker's channels is told. -/
def tellOthers (worker : WorkerId) : List Entry → State → State
  | [], s => s
  | entry :: rest, s =>
      let other := if entry.caller = worker then entry.callee else entry.caller
      tellOthers worker rest (s.send other (.invalidate worker entry.chan))

def invalidateWorker (worker : WorkerId) : State :=
  tellOthers worker (s.channelRegistry.filter (involves worker))
    { s with channelRegistry := s.channelRegistry.filter fun entry => !involves worker entry }

/-- userAuth answers. -/
def answered (ask : Ask) (ok : Bool) : State :=
  match ask with
  | .missing deviceID _ caller => s.deny caller deviceID (if ok then .moduleMissing else .unauthorized)
  | .request deviceID appKey caller callee =>
      if ok then grant s deviceID appKey caller callee else s.deny caller deviceID .unauthorized
  | .recheck caller callee chan _ _ =>
      let counted : State := { s with recheckInFlight := s.recheckInFlight - 1 }
      if ok then counted else closeRevoked counted caller callee chan

/-- The callee has answered an allow. -/
def onAllowed (id : Nat) : State :=
  if id ∈ s.waiting then
    let ticket := s.tickets id
    ({ s with waiting := s.waiting.filter fun other => other != id } : State).send ticket.caller
      (.grant ticket.deviceID ticket.callee false ticket.chan)
  else s

/-- A message of a worker; `limited` is the rate limit of module messages. -/
def onWorkerMessage (worker : WorkerId) (limited known : Bool) : ToMain → State
  | .request deviceID appKey =>
      if limited then s.deny worker deviceID .RATE_LIMITED else handleRequest s deviceID appKey worker known
  | .selfInvalidate => invalidateWorker s worker
  | .allowed id => onAllowed s id

def denyAll : List Nat → State → State
  | [], s => s
  | id :: rest, s => denyAll rest (s.deny (s.tickets id).caller (s.tickets id).deviceID .workerEnded)

/-- `endWith`: the replies that a worker still owes are errors. -/
def endWith (worker : WorkerId) : State :=
  let owed := s.waiting.filter fun id => (s.tickets id).callee = worker
  denyAll owed
    { s with
      gone := put s.gone worker true
      waiting := s.waiting.filter fun id => (s.tickets id).callee != worker }

end Broker

/-! What messages to the workers and questions to userAuth leave alone. -/
section Frames

variable {γ : Type} (field : State → γ)

theorem tellOthers_keeps (keeps : ∀ s inbox, field { s with inbox := inbox } = field s) (worker : WorkerId)
    (entries : List Entry) (s : State) :
    field (tellOthers worker entries s) = field s := by
  induction entries generalizing s with
  | nil => rfl
  | cons entry rest ih => exact (ih _).trans (keeps s _)

theorem denyAll_keeps (keeps : ∀ s inbox, field { s with inbox := inbox } = field s) (ids : List Nat) (s : State) :
    field (denyAll ids s) = field s := by
  induction ids generalizing s with
  | nil => rfl
  | cons id rest ih => exact (ih _).trans (keeps s _)

variable (keeps : ∀ s registry asks waiting inbox,
  field { s with channelRegistry := registry, asks := asks, waiting := waiting, inbox := inbox } = field s)
include keeps

theorem invalidateWorker_keeps (s : State) (worker : WorkerId) : field (invalidateWorker s worker) = field s := by
  have told := tellOthers_keeps field (fun s inbox => keeps s s.channelRegistry s.asks s.waiting inbox) worker
    (s.channelRegistry.filter (involves worker))
    { s with channelRegistry := s.channelRegistry.filter fun entry => !involves worker entry }
  exact told.trans (keeps s _ s.asks s.waiting s.inbox)

theorem closeRevoked_keeps (s : State) (caller callee : WorkerId) (chan : Nat) :
    field (closeRevoked s caller callee chan) = field s := by
  simp only [closeRevoked]
  split
  · rfl
  · split
    · exact keeps s _ s.asks s.waiting _
    · rfl

theorem onWorkerMessage_keeps (s : State) (worker : WorkerId) (limited known : Bool) (message : ToMain) :
    field (onWorkerMessage s worker limited known message) = field s := by
  have deny := fun caller d errCode => keeps s s.channelRegistry s.asks s.waiting (s.deny caller d errCode).inbox
  cases message with
  | request d appKey =>
      have ask := fun asks => keeps s s.channelRegistry asks s.waiting s.inbox
      simp only [onWorkerMessage, handleRequest]
      split
      · exact deny _ _ _
      · split
        · split
          · exact ask _
          · exact deny _ _ _
        · split
          · exact deny _ _ _
          · exact ask _
  | selfInvalidate => exact invalidateWorker_keeps field keeps s worker
  | allowed id =>
      simp only [onWorkerMessage, onAllowed]
      split
      · exact keeps s s.channelRegistry s.asks _ _
      · rfl

end Frames

/-! Steps. -/
section Steps

inductive Action where
  | online (deviceID : DeviceId) (worker : WorkerId)
  /-- A module calls a device of another worker. -/
  | call (worker : WorkerId) (deviceID : DeviceId) (appKey : AppKey)
  | receive (worker : WorkerId) (limited known : Bool)
  /-- The userAuth at this place of `asks` answers. -/
  | answer (place : Nat) (ok : Bool)
  | recheck
  /-- The main thread unloads the devices of a worker. -/
  | purge (worker : WorkerId)
  /-- A worker has reloaded its module. -/
  | reload (worker : WorkerId)
  | next (worker : WorkerId)
  /-- The 'close' event of a port whose other side is closed. -/
  | portClose (e : End)
  | deliver (place : Nat)
  /-- A module posts an invoke on its own port. -/
  | post (e : End) (deviceID : DeviceId)
  | exit (worker : WorkerId)
  | ended (worker : WorkerId)
  deriving DecidableEq

/-- What an end does with an invoke. -/
inductive Verdict where
  | run
  | PEER_NO_HANDLER
  | PEER_NOT_GRANTED
  /-- The port was not taken yet. -/
  | waits
  /-- The end is closed. -/
  | lost
  deriving DecidableEq

def verdict (s : State) (flight : Flight) : Verdict :=
  let channel := s.channels flight.chan
  match channel.port flight.towards with
  | .transit => .waits
  | .closed => .lost
  | .held =>
      match flight.towards with
      | .caller => .PEER_NO_HANDLER
      | .callee => if flight.deviceID ∈ channel.allowed then .run else .PEER_NOT_GRANTED

def exits (s : State) (worker : WorkerId) : State :=
  { s.withWorker worker fun old => { old with ended := true } with
    channels := fun chan =>
      let channel := s.channels chan
      { channel with
        near := if channel.caller = worker then .closed else channel.near
        far := if channel.callee = worker then .closed else channel.far } }

theorem exits_port (s : State) (worker : WorkerId) (chan : Nat) (side : Side) :
    ((exits s worker).channels chan).port side =
      if (s.channels chan).owner side = worker then .closed else (s.channels chan).port side := by
  cases side <;> rfl

theorem exits_owner (s : State) (worker : WorkerId) (chan : Nat) (side : Side) :
    ((exits s worker).channels chan).owner side = (s.channels chan).owner side := by
  cases side <;> rfl

def step (s : State) : Action → State
  | .online deviceID worker => { s with deviceMap := put s.deviceMap deviceID (some worker) }
  | .call worker deviceID appKey =>
      if (s.workers worker).ended then s else invokeActionViaPeerChannel s worker deviceID appKey
  | .receive worker limited known =>
      match s.outbox worker with
      | [] => s
      | message :: rest =>
          onWorkerMessage { s with outbox := put s.outbox worker rest } worker limited known message
  | .answer place ok =>
      match s.asks[place]? with
      | none => s
      | some ask => answered { s with asks := s.asks.eraseIdx place } ask ok
  | .recheck => recheckGrants s
  | .purge worker =>
      invalidateWorker
        { s with deviceMap := fun deviceID => if s.deviceMap deviceID = some worker then none else s.deviceMap deviceID }
        worker
  | .reload worker => if (s.workers worker).ended then s else s.sendMain worker .selfInvalidate
  | .next worker => handleNext s worker
  | .portClose e =>
      if s.port e = .held && s.port ⟨e.chan, e.side.other⟩ = .closed then invalidate s e else s
  | .deliver place => { s with flights := s.flights.eraseIdx place }
  | .post e deviceID =>
      if s.port e = .held then { s with flights := s.flights ++ [⟨e.chan, e.side.other, deviceID, none⟩] } else s
  | .exit worker => exits s worker
  | .ended worker => endWith s worker

def run : List Action → State → State
  | [], s => s
  | action :: rest, s => run rest (step s action)

/-- The states between the actions, with the action taken in each. -/
def steps : List Action → State → List (State × Action)
  | [], _ => []
  | action :: rest, s => (s, action) :: steps rest (step s action)

/-- What every step keeps under a condition holds at the end of a run that meets it. -/
theorem run_keeps (inv : State → Prop) (condition : State → Action → Prop)
    (keeps : ∀ s action, inv s → condition s action → inv (step s action)) (actions : List Action) (s : State)
    (start : inv s) (meets : ∀ entry ∈ steps actions s, condition entry.1 entry.2) :
    inv (run actions s) := by
  induction actions generalizing s with
  | nil => exact start
  | cons action rest ih =>
      apply ih
      · exact keeps s action start (meets (s, action) List.mem_cons_self)
      · intro entry member
        exact meets entry (List.mem_cons_of_mem _ member)

end Steps

end Countinghouse.PeerBroker
