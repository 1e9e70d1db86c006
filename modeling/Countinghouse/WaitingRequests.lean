import Countinghouse.MainThread

/-!
What holds of the main thread's requests in every state: each waits or is done, each callback
is called at most once, and messages go only to workers under which a device was registered.
-/

namespace Countinghouse.WaitingRequests

open PlainObject MainThread

/-! The property. -/
section Property

/-- A message that opens, allows or uses a device of a worker's names one that was registered under it. -/
def Routed (registered : List (String × WorkerId)) (sent : WorkerId × Post) : Prop :=
  match sent.2 with
  | .open _ _ _ targetDeviceID => (targetDeviceID, sent.1) ∈ registered
  | .allow _ _ _ deviceID => (deviceID, sent.1) ∈ registered
  | .grant _ targetDeviceID targetWorkerId => (targetDeviceID, targetWorkerId) ∈ registered
  | .invoke _ _ deviceID _ _ _ => ∃ key, deviceID.text = some key ∧ (key, sent.1) ∈ registered
  | _ => True

def askNumber : Ask → Nat
  | .missingPeer number _ _ _ | .peer number _ _ _ _ => number
  | .missingHop hop _ | .hop hop _ _ => hop.number

def Awaits (number : Nat) : Callback → Prop
  | .allow own _ _ _ => own = number
  | _ => False

abbrev Queues := WorkerId → Table Callback

def queues (s : State) : Queues := fun worker => (s.workers worker).msgQueue

/-- The request waits for userAuth, or for the callee to take the device. -/
def Waiting (queue : Queues) (s : State) (number : Nat) : Prop :=
  (∃ ask ∈ s.asks, askNumber ask = number) ∨ ∃ worker, ∃ entry ∈ queue worker, Awaits number entry.2

/-- The asking worker has been granted the device or refused, or its call has gone to a worker of the device. -/
def Done (s : State) (number : Nat) (request : Request) : Prop :=
  match request.kind with
  | .peer =>
      (∃ targetDeviceID errMsg errCode, (request.caller, .deny (some number) targetDeviceID errMsg errCode) ∈ s.posted) ∨
        ∃ callee, (request.key, callee) ∈ s.registered ∧ (request.caller, .grant number request.key callee) ∈ s.posted
  | .hop =>
      (∃ callee, (request.key, callee) ∈ s.registered ∧
        ∃ id deviceID serviceID actionName args,
          (callee, .invoke number id deviceID serviceID actionName args) ∈ s.posted) ∨
        (∃ msgID errMsg errCode data, errMsg.isNull = false ∧
          (request.caller, .invokeReply number msgID errMsg errCode data) ∈ s.posted) ∨
        (s.workers request.caller).ended.isSome

/-- Every request waits or is done, but for the one that is being dealt with. -/
def Settled (due : Option Nat) (queue : Queues) (s : State) : Prop :=
  ∀ number request, some number ≠ due → s.requests[number]? = some request →
    Waiting queue s number ∨ Done s number request

/-- Worker messages have reached only what was registered. -/
structure Sound (s : State) : Prop where
  calledOnce : s.called.Nodup
  calledStored : ∀ call ∈ s.called, call ∈ s.stored
  routed : ∀ sent ∈ s.posted, Routed s.registered sent
  settled : Settled none (queues s) s

end Property

/-! What holds of the parts of a state. -/
section Parts

def Postable (err : Failure) : Prop :=
  err.message.clones = true ∧ err.code.clones = true ∧ err.message.isNull = false

/-- What `deviceMap` gave for a key. -/
def Resolved (s : State) (key : String) : Option WorkerId → Prop
  | some worker => (key, worker) ∈ s.registered
  | none => key ∈ inheritedNames

def AskFits (s : State) : Ask → Prop
  | .missingPeer number targetDeviceID caller missing =>
      s.requests[number]? = some ⟨.peer, caller, targetDeviceID⟩ ∧ Postable missing
  | .missingHop hop missing =>
      (∃ key, s.requests[hop.number]? = some ⟨.hop, hop.caller, key⟩) ∧ hop.msgID.clones = true ∧ Postable missing
  | .peer number targetDeviceID _ caller callee =>
      s.requests[number]? = some ⟨.peer, caller, targetDeviceID⟩ ∧ Resolved s targetDeviceID callee
  | .hop hop key callee =>
      s.requests[hop.number]? = some ⟨.hop, hop.caller, key⟩ ∧ hop.deviceID.text = some key ∧
        hop.msgID.clones = true ∧ Resolved s key callee

def CallbackFits (s : State) : Callback → Prop
  | .client _ => True
  | .allow number caller callee targetDeviceID =>
      s.requests[number]? = some ⟨.peer, caller, targetDeviceID⟩ ∧ (targetDeviceID, callee) ∈ s.registered
  | .hop hop => hop.msgID.clones = true

/-- The main thread's maps, questions and messages. -/
structure Base (s : State) : Prop where
  devices : ∀ entry ∈ s.deviceMap, entry ∈ s.registered ∧ entry.1 ∉ inheritedNames
  channels : ∀ pair ∈ s.channelRegistry, pair.2.isSome = true
  supervisor : ∀ key err, s.supervisor key = some err → Postable err
  asks : ∀ ask ∈ s.asks, AskFits s ask
  sessions : ∀ hop ∈ s.sessions, hop.msgID.clones = true
  metering : ∀ entry ∈ s.metering, entry.1.msgID.clones = true
  ended : ∀ worker err, (s.workers worker).ended = some err →
    ∃ (code : EndCode) (message : String), err = failureOf (code.name, message)
  routed : ∀ sent ∈ s.posted, Routed s.registered sent

/-- The callbacks that wait in `queue`. -/
structure QueuesFit (queue : Queues) (s : State) : Prop where
  nodup : ∀ worker, ((queue worker).map Prod.fst).Nodup
  held : ∀ worker, ∀ entry ∈ queue worker,
    (worker, entry.1) ∈ s.stored ∧ (worker, entry.1) ∉ s.called ∧ CallbackFits s entry.2
  ids : ∀ call ∈ s.stored, ∃ id, id < (s.workers call.1).msgID ∧ call.2 = toString id
  once : s.called.Nodup
  calledStored : ∀ call ∈ s.called, call ∈ s.stored

/-- The invariant; `queue` are the callbacks that are still to be called. -/
structure Inv (due : Option Nat) (queue : Queues) (s : State) : Prop where
  base : Base s
  fits : QueuesFit queue s
  settled : Settled due queue s

/-- Some messages are posted and sessions may end; nothing else changes. -/
structure Quiet (s after : State) : Prop where
  workers : after.workers = s.workers
  deviceMap : after.deviceMap = s.deviceMap
  supervisor : after.supervisor = s.supervisor
  asks : after.asks = s.asks
  requests : after.requests = s.requests
  registered : after.registered = s.registered
  stored : after.stored = s.stored
  called : after.called = s.called
  channels : ∀ pair ∈ after.channelRegistry, pair ∈ s.channelRegistry ∨ pair.2.isSome = true
  sessions : ∀ hop ∈ after.sessions, hop ∈ s.sessions ∨ hop.msgID.clones = true
  metering : ∀ entry ∈ after.metering, entry ∈ s.metering ∨ entry.1.msgID.clones = true
  posted : ∃ more, after.posted = s.posted ++ more ∧ ∀ sent ∈ more, Routed s.registered sent

theorem quiet_refl (s : State) : Quiet s s :=
  ⟨rfl, rfl, rfl, rfl, rfl, rfl, rfl, rfl, fun _ => Or.inl, fun _ => Or.inl, fun _ => Or.inl, [], by simp, by simp⟩

theorem Quiet.trans {s between after : State} (first : Quiet s between) (second : Quiet between after) :
    Quiet s after where
  workers := second.workers.trans first.workers
  deviceMap := second.deviceMap.trans first.deviceMap
  supervisor := second.supervisor.trans first.supervisor
  asks := second.asks.trans first.asks
  requests := second.requests.trans first.requests
  registered := second.registered.trans first.registered
  stored := second.stored.trans first.stored
  called := second.called.trans first.called
  channels := fun pair member => (second.channels pair member).elim (first.channels pair) Or.inr
  sessions := fun hop member => (second.sessions hop member).elim (first.sessions hop) Or.inr
  metering := fun entry member => (second.metering entry member).elim (first.metering entry) Or.inr
  posted := by
    obtain ⟨more, grown, routed⟩ := first.posted
    obtain ⟨later, grownLater, routedLater⟩ := second.posted
    refine ⟨more ++ later, by rw [grownLater, grown, List.append_assoc], fun sent member => ?_⟩
    rcases List.mem_append.mp member with early | late
    · exact routed sent early
    · exact first.registered ▸ routedLater sent late

theorem Quiet.mem {s after : State} (quiet : Quiet s after) {sent : WorkerId × Post} (member : sent ∈ s.posted) :
    sent ∈ after.posted := by
  obtain ⟨more, grown, -⟩ := quiet.posted
  rw [grown]
  exact List.mem_append_left _ member

/-- More messages are posted, more devices registered, more workers have ended. -/
structure Grows (s after : State) : Prop where
  posted : ∀ sent ∈ s.posted, sent ∈ after.posted
  registered : ∀ entry ∈ s.registered, entry ∈ after.registered
  ended : ∀ worker, (s.workers worker).ended.isSome = true → (after.workers worker).ended.isSome = true

theorem Grows.trans {s between after : State} (first : Grows s between) (second : Grows between after) :
    Grows s after where
  posted := fun sent member => second.posted sent (first.posted sent member)
  registered := fun entry member => second.registered entry (first.registered entry member)
  ended := fun worker ended => second.ended worker (first.ended worker ended)

theorem Quiet.grows {s after : State} (quiet : Quiet s after) : Grows s after where
  posted := fun _ => quiet.mem
  registered := by simp [quiet.registered]
  ended := by simp [quiet.workers]

theorem Done.grows {s after : State} {number : Nat} {request : Request} (done : Done s number request)
    (grows : Grows s after) : Done after number request := by
  obtain ⟨kind, caller, key⟩ := request
  cases kind with
  | peer =>
      rcases done with ⟨target, errMsg, errCode, sent⟩ | ⟨callee, known, sent⟩
      · exact Or.inl ⟨target, errMsg, errCode, grows.posted _ sent⟩
      · exact Or.inr ⟨callee, grows.registered _ known, grows.posted _ sent⟩
  | hop =>
      rcases done with ⟨callee, known, id, deviceID, serviceID, actionName, args, sent⟩ |
        ⟨msgID, errMsg, errCode, data, present, sent⟩ | ended
      · exact Or.inl
          ⟨callee, grows.registered _ known, id, deviceID, serviceID, actionName, args, grows.posted _ sent⟩
      · exact Or.inr (Or.inl ⟨msgID, errMsg, errCode, data, present, grows.posted _ sent⟩)
      · exact Or.inr (Or.inr (grows.ended _ ended))

theorem Base.quiet {s after : State} (base : Base s) (quiet : Quiet s after) : Base after where
  devices := by
    rw [quiet.deviceMap, quiet.registered]
    exact base.devices
  channels := fun pair member => (quiet.channels pair member).elim (base.channels pair) id
  supervisor := by
    rw [quiet.supervisor]
    exact base.supervisor
  asks := by
    intro ask member
    rw [quiet.asks] at member
    have fits := base.asks ask member
    cases ask <;> simpa only [AskFits, Resolved, quiet.requests, quiet.registered] using fits
  sessions := fun hop member => (quiet.sessions hop member).elim (base.sessions hop) id
  metering := fun entry member => (quiet.metering entry member).elim (base.metering entry) id
  ended := by
    rw [quiet.workers]
    exact base.ended
  routed := by
    obtain ⟨more, grown, routed⟩ := quiet.posted
    rw [grown, quiet.registered]
    intro sent member
    rcases List.mem_append.mp member with old | new
    · exact base.routed sent old
    · exact routed sent new

theorem QueuesFit.quiet {queue : Queues} {s after : State} (fits : QueuesFit queue s) (quiet : Quiet s after) :
    QueuesFit queue after where
  nodup := fits.nodup
  held := by
    intro worker entry member
    obtain ⟨stored, uncalled, fit⟩ := fits.held worker entry member
    rw [quiet.stored, quiet.called]
    refine ⟨stored, uncalled, ?_⟩
    cases held : entry.2 <;> simp only [held, CallbackFits, quiet.requests, quiet.registered] at fit ⊢ <;> exact fit
  ids := by
    rw [quiet.stored, quiet.workers]
    exact fits.ids
  once := by
    rw [quiet.called]
    exact fits.once
  calledStored := by
    rw [quiet.called, quiet.stored]
    exact fits.calledStored

theorem Settled.quiet {due : Option Nat} {queue : Queues} {s after : State} (settled : Settled due queue s)
    (quiet : Quiet s after) : Settled due queue after := by
  intro number request other posed
  rw [quiet.requests] at posed
  rcases settled number request other posed with waiting | done
  · left
    simpa only [Waiting, quiet.asks] using waiting
  · exact Or.inr (done.grows quiet.grows)

theorem Inv.quiet {due : Option Nat} {queue : Queues} {s after : State} (inv : Inv due queue s)
    (quiet : Quiet s after) : Inv due queue after :=
  ⟨inv.base.quiet quiet, inv.fits.quiet quiet, inv.settled.quiet quiet⟩

/-- The request that was being dealt with has been settled too. -/
theorem Inv.close {number : Nat} {queue : Queues} {s : State} (inv : Inv (some number) queue s) {request : Request}
    (posed : s.requests[number]? = some request) (settled : Waiting queue s number ∨ Done s number request) :
    Inv none queue s := by
  refine ⟨inv.base, inv.fits, ?_⟩
  intro other found _ foundThere
  by_cases same : other = number
  · subst same
    obtain rfl : found = request := Option.some.inj (foundThere.symm.trans posed)
    exact settled
  · exact inv.settled other found (by simpa using same) foundThere

theorem queues_quiet {s after : State} (quiet : Quiet s after) : queues after = queues s := by
  funext worker
  simp only [queues, quiet.workers]

theorem AskFits.mono {s after : State} {ask : Ask} (fits : AskFits s ask)
    (requests : ∀ (number : Nat) (request : Request), s.requests[number]? = some request → after.requests[number]? = some request)
    (registered : ∀ entry ∈ s.registered, entry ∈ after.registered) : AskFits after ask := by
  have resolved : ∀ {key callee}, Resolved s key callee → Resolved after key callee := by
    rintro key (_ | callee) known
    · exact known
    · exact registered _ known
  cases ask with
  | missingPeer number targetDeviceID caller missing => exact ⟨requests _ _ fits.1, fits.2⟩
  | missingHop hop missing =>
      obtain ⟨⟨key, posed⟩, rest⟩ := fits
      exact ⟨⟨key, requests _ _ posed⟩, rest⟩
  | peer number targetDeviceID appKey caller callee => exact ⟨requests _ _ fits.1, resolved fits.2⟩
  | hop hop key callee =>
      obtain ⟨posed, text, clones, known⟩ := fits
      exact ⟨requests _ _ posed, text, clones, resolved known⟩

theorem CallbackFits.mono {s after : State} {callback : Callback} (fits : CallbackFits s callback)
    (requests : ∀ (number : Nat) (request : Request), s.requests[number]? = some request → after.requests[number]? = some request)
    (registered : ∀ entry ∈ s.registered, entry ∈ after.registered) : CallbackFits after callback := by
  cases callback with
  | client completes => trivial
  | allow number caller callee targetDeviceID => exact ⟨requests _ _ fits.1, registered _ fits.2⟩
  | hop hop => exact fits

/-- Paths, handlers and registered devices of workers do not count for the rest. -/
theorem registered_inv {queue : Queues} {s after : State} (inv : Inv none queue s)
    (ended : ∀ worker, (after.workers worker).ended = (s.workers worker).ended)
    (ids : ∀ worker, (after.workers worker).msgID = (s.workers worker).msgID)
    (registered : ∀ entry ∈ s.registered, entry ∈ after.registered)
    (devices : ∀ entry ∈ after.deviceMap, entry ∈ after.registered ∧ entry.1 ∉ inheritedNames)
    (channels : ∀ pair ∈ after.channelRegistry, pair.2.isSome = true)
    (supervisor : ∀ key err, after.supervisor key = some err → Postable err)
    (same : after.asks = s.asks ∧ after.sessions = s.sessions ∧ after.metering = s.metering ∧ after.posted = s.posted ∧
      after.requests = s.requests ∧ after.stored = s.stored ∧ after.called = s.called) :
    Inv none queue after := by
  obtain ⟨asks, sessions, metering, posted, requests, stored, called⟩ := same
  have posed : ∀ (number : Nat) (request : Request), s.requests[number]? = some request →
      after.requests[number]? = some request := by
    rw [requests]
    exact fun _ _ => id
  refine ⟨⟨devices, channels, supervisor, ?_, sessions ▸ inv.base.sessions, metering ▸ inv.base.metering, ?_, ?_⟩,
    ⟨inv.fits.nodup, ?_, ?_, called ▸ inv.fits.once, ?_⟩, ?_⟩
  · intro ask member
    rw [asks] at member
    exact (inv.base.asks ask member).mono posed registered
  · intro worker err finished
    rw [ended worker] at finished
    exact inv.base.ended worker err finished
  · intro sent member
    rw [posted] at member
    have routed := inv.base.routed sent member
    obtain ⟨worker, message⟩ := sent
    cases message with
    | «open» number caller appKey targetDeviceID => exact registered _ routed
    | allow number next caller deviceID => exact registered _ routed
    | grant number targetDeviceID targetWorkerId => exact registered _ routed
    | invoke number next deviceID serviceID actionName args =>
        obtain ⟨key, text, known⟩ := routed
        exact ⟨key, text, registered _ known⟩
    | deny => trivial
    | invokeReply => trivial
    | rateLimited => trivial
    | queryReply => trivial
    | serviceReply => trivial
    | invalidate => trivial
    | other => trivial
  · intro worker entry member
    obtain ⟨storedThere, uncalled, fits⟩ := inv.fits.held worker entry member
    rw [stored, called]
    exact ⟨storedThere, uncalled, fits.mono posed registered⟩
  · intro call member
    rw [stored] at member
    rw [ids call.1]
    exact inv.fits.ids call member
  · rw [called, stored]
    exact inv.fits.calledStored
  · intro number request other there
    rw [requests] at there
    rcases inv.settled number request other there with (asked | waiting) | done
    · exact Or.inl (Or.inl (asks ▸ asked))
    · exact Or.inl (Or.inr waiting)
    · exact Or.inr (done.grows ⟨by rw [posted]; exact fun _ => id, registered, fun worker => by rw [ended worker]; exact id⟩)

/-- What an edit of a worker leaves of its queue, its end and its ids. -/
theorem edited (s : State) (worker : WorkerId) (edit : WorkerMessage → WorkerMessage)
    (queue : (edit (s.workers worker)).msgQueue = (s.workers worker).msgQueue)
    (ended : (edit (s.workers worker)).ended = (s.workers worker).ended)
    (ids : (edit (s.workers worker)).msgID = (s.workers worker).msgID) :
    queues (s.withWorker worker edit) = queues s ∧
      (∀ other, ((s.withWorker worker edit).workers other).ended = (s.workers other).ended) ∧
      ∀ other, ((s.withWorker worker edit).workers other).msgID = (s.workers other).msgID := by
  refine ⟨funext fun other => ?_, fun other => ?_, fun other => ?_⟩ <;>
    by_cases same : other = worker
  · subst same
    simpa [queues, State.withWorker] using queue
  · simp [queues, State.withWorker, same]
  · subst same
    simpa [State.withWorker] using ended
  · simp [State.withWorker, same]
  · subst same
    simpa [State.withWorker] using ids
  · simp [State.withWorker, same]

/-- A worker's other fields do not count. -/
theorem edited_inv {s : State} (inv : Inv none (queues s) s) (worker : WorkerId) (edit : WorkerMessage → WorkerMessage)
    (queue : (edit (s.workers worker)).msgQueue = (s.workers worker).msgQueue)
    (ended : (edit (s.workers worker)).ended = (s.workers worker).ended)
    (ids : (edit (s.workers worker)).msgID = (s.workers worker).msgID) :
    Inv none (queues (s.withWorker worker edit)) (s.withWorker worker edit) := by
  obtain ⟨sameQueues, sameEnds, sameIds⟩ := edited s worker edit queue ended ids
  rw [sameQueues]
  exact registered_inv inv sameEnds sameIds (fun _ => id) inv.base.devices inv.base.channels inv.base.supervisor
    ⟨rfl, rfl, rfl, rfl, rfl, rfl, rfl⟩

end Parts

end Countinghouse.WaitingRequests
