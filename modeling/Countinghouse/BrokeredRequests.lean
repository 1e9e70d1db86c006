import Countinghouse.QueuedCallbacks

/-!
Requests of workers for devices: peer channels and calls of actions, with the AuthProvider's
answer between a request and what becomes of it.
-/

namespace Countinghouse.BrokeredRequests

open PlainObject MainThread WaitingRequests QueuedCallbacks

/-! When a request is dealt with. -/
section Condition

variable (host : Host) (s : State)

/-- userAuth is asked about the device. -/
def asks (caller : Option WorkerId) (key : String) : Bool :=
  match get s.deviceMap key with
  | .undefined => (s.supervisor key).isSome
  | .own callee => some callee != caller
  | .inherited => true

/-- A call has what the handler reads, and a device that is not there can be told of. -/
def foreignMeets (data id : Value) : Prop :=
  data.isNull = false ∧ id.clones = true ∧
    ∃ key, (data.read "deviceID").text = some key ∧
      (match get s.deviceMap key with
        | .undefined => (missingDeviceError host s (data.read "deviceID") key).isSome = true
        | _ => True) ∧
      (asks s none key = true → host.authThrows (data.read "appKey") = false)

def requestMeets (data : Value) (worker : WorkerId) : Prop :=
  ∀ targetDeviceID, orNull data "targetDeviceID" = .string targetDeviceID → asks s (some worker) targetDeviceID = true →
    host.authThrows (orNull data "appKey") = false

/-- userAuth passes no device that is a member of `Object.prototype`, and what is sent on can be cloned. -/
def passMeets : Ask → Prop
  | .peer _ targetDeviceID appKey caller callee =>
      targetDeviceID ∉ inheritedNames ∧ appKey.text.isSome ∧
        ((caller, callee) ∉ s.channelRegistry → appKey.clones)
  | .hop hop key callee =>
      key ∉ inheritedNames ∧
        ∀ worker, callee = some worker → (s.workers worker).ended = none →
          hop.deviceID.clones ∧ hop.serviceID.clones ∧ hop.actionName.clones ∧ hop.args.clones
  | _ => True

end Condition

/-! Requests. -/
section Requests

variable {host : Host} {s : State}

/-- A handler does not throw and keeps the invariant. -/
def Keeps (ran : Ran) : Prop := ran.threw = false ∧ Inv none (queues ran.state) ran.state

theorem keeps_calm (inv : Inv none (queues s) s) {ran : Ran} (calm : Calm s ran) : Keeps ran := by
  refine ⟨calm.1, ?_⟩
  rw [queues_quiet calm.2]
  exact inv.quiet calm.2

theorem keeps_post (inv : Inv none (queues s) s) {worker : WorkerId} {message : Post} (clones : message.clones = true)
    (routed : Routed s.registered (worker, message)) : Keeps (postMessage s worker message) :=
  keeps_calm inv (post_calm worker message clones routed).1

/-- Messages that settle the request that is being dealt with. -/
theorem keeps_done {number : Nat} {request : Request} (inv : Inv (some number) (queues s) s) {ran : Ran}
    (calm : Calm s ran) (posed : s.requests[number]? = some request) (done : Done ran.state number request) :
    Keeps ran := by
  refine ⟨calm.1, ?_⟩
  rw [queues_quiet calm.2]
  exact (inv.quiet calm.2).close (calm.2.requests ▸ posed) (Or.inr done)

theorem keeps_deny {number : Nat} {caller : WorkerId} {targetDeviceID : String}
    (inv : Inv (some number) (queues s) s) (posed : s.requests[number]? = some ⟨.peer, caller, targetDeviceID⟩)
    {err : Failure} (postable : Postable err) :
    Keeps (postMessage s caller (.deny (some number) (.string targetDeviceID) err.message err.code)) := by
  obtain ⟨message, code, -⟩ := postable
  obtain ⟨calm, sent⟩ := post_calm (s := s) caller (.deny (some number) (.string targetDeviceID) err.message err.code)
    (by simp [Post.clones, message, code]) trivial
  exact keeps_done inv calm posed (Or.inl ⟨_, _, _, sent⟩)

theorem keeps_refuse {hop : Hop} {key : String} (inv : Inv (some hop.number) (queues s) s)
    (posed : s.requests[hop.number]? = some ⟨.hop, hop.caller, key⟩) (id : hop.msgID.clones = true)
    {err : Failure} (postable : Postable err) :
    Keeps (sendReply s hop.caller (.invokeReply hop.number hop.msgID err.message err.code .null)) := by
  obtain ⟨message, code, present⟩ := postable
  obtain ⟨calm, told⟩ := reply_calm (s := s) hop err.message err.code .null fun _ => ⟨id, message, code, rfl⟩
  exact keeps_done inv calm posed (refusal_done present calm.2.grows told)

theorem runtimeError_postable (host : Host) (code : String) : Postable (runtimeError host code) :=
  ⟨rfl, rfl, rfl⟩

/-- A new request is noted. -/
theorem note_inv (inv : Inv none (queues s) s) (request : Request) :
    Inv (some s.requests.length) (queues s) (s.note request) ∧
      (s.note request).requests[s.requests.length]? = some request := by
  have requests : ∀ (number : Nat) (found : Request), s.requests[number]? = some found →
      (s.note request).requests[number]? = some found := by
    intro number found there
    have below := (List.getElem?_eq_some_iff.mp there).1
    simp only [State.note]
    rw [List.getElem?_append_left below]
    exact there
  refine ⟨⟨⟨inv.base.devices, inv.base.channels, inv.base.supervisor, ?_, inv.base.sessions, inv.base.metering, inv.base.ended,
    inv.base.routed⟩, ⟨inv.fits.nodup, ?_, inv.fits.ids, inv.fits.once, inv.fits.calledStored⟩, ?_⟩, ?_⟩
  · intro ask member
    exact (inv.base.asks ask member).mono requests fun _ => id
  · intro worker entry member
    obtain ⟨stored, uncalled, fits⟩ := inv.fits.held worker entry member
    exact ⟨stored, uncalled, fits.mono requests fun _ => id⟩
  · intro number found other posed
    have old : s.requests[number]? = some found := by
      have below : number < s.requests.length := by
        have bound := (List.getElem?_eq_some_iff.mp posed).1
        simp only [State.note, List.length_append, List.length_singleton] at bound
        have differs : number ≠ s.requests.length := fun same => other (by rw [same])
        omega
      simp only [State.note] at posed
      rwa [List.getElem?_append_left below] at posed
    exact inv.settled number found (by simp) old
  · simp [State.note]

/-- userAuth is asked about the request that is being dealt with. -/
theorem keeps_ask {number : Nat} {request : Request} (inv : Inv (some number) (queues s) s)
    (posed : s.requests[number]? = some request) {appKey : Value} {ask : Ask}
    (answers : host.authThrows appKey = false) (fits : AskFits s ask) (own : askNumber ask = number) :
    Keeps (userAuth host s appKey ask) := by
  simp only [userAuth, answers, Bool.false_eq_true, if_false]
  refine ⟨rfl, Inv.close ⟨⟨inv.base.devices, inv.base.channels, inv.base.supervisor, ?_, inv.base.sessions,
    inv.base.metering, inv.base.ended, inv.base.routed⟩, ⟨inv.fits.nodup, inv.fits.held, inv.fits.ids, inv.fits.once,
    inv.fits.calledStored⟩, ?_⟩ posed ?_⟩
  · intro other member
    rcases List.mem_append.mp member with old | new
    · exact inv.base.asks other old
    · obtain rfl := List.mem_singleton.mp new
      exact fits
  · intro other found differs there
    rcases inv.settled other found differs there with (⟨asked, member, same⟩ | waiting) | done
    · exact Or.inl (Or.inl ⟨asked, List.mem_append_left _ member, same⟩)
    · exact Or.inl (Or.inr waiting)
    · exact Or.inr (done.grows ⟨fun _ => id, fun _ => id, fun _ => id⟩)
  · exact Or.inl (Or.inl ⟨ask, by simp [returns], own⟩)

theorem handleRequest_keeps (inv : Inv none (queues s) s) {data : Value} {worker : WorkerId}
    (meets : requestMeets host s data worker) : Keeps (handleRequest host s data worker) := by
  unfold handleRequest
  split
  next targetDeviceID target =>
    obtain ⟨noted, posed⟩ := note_inv inv ⟨.peer, worker, targetDeviceID⟩
    have same : queues s = queues (s.note ⟨.peer, worker, targetDeviceID⟩) := rfl
    rw [same] at noted
    have allowed := meets targetDeviceID target
    simp only
    split
    next held =>
      change get s.deviceMap targetDeviceID = _ at held
      split
      next missing found =>
        have answers : asks s (some worker) targetDeviceID = true := by
          simp only [asks, held]
          change s.supervisor targetDeviceID = _ at found
          simp [found]
        exact keeps_ask noted posed (allowed answers) ⟨posed, inv.base.supervisor _ _ found⟩ rfl
      next => exact keeps_deny noted posed (runtimeError_postable host _)
    next callee held =>
      change get s.deviceMap targetDeviceID = _ at held
      split
      next => exact keeps_deny noted posed (runtimeError_postable host _)
      next differs =>
        have answers : asks s (some worker) targetDeviceID = true := by
          simpa [asks, held] using differs
        exact keeps_ask noted posed (allowed answers) ⟨posed, (inv.base.devices _ (lookup_mem (own_lookup held))).1⟩ rfl
    next held =>
      change get s.deviceMap targetDeviceID = _ at held
      have answers : asks s (some worker) targetDeviceID = true := by
        simp [asks, held]
      exact keeps_ask noted posed (allowed answers) ⟨posed, inherited_mem held⟩ rfl
  next => exact ⟨rfl, inv⟩

theorem missing_supervised {deviceID : Value} {key : String} {missing : Failure}
    (found : missingDeviceError host s deviceID key = some (true, missing)) : s.supervisor key = some missing := by
  unfold missingDeviceError at found
  split at found
  next own supervised =>
    cases found
    exact supervised
  next =>
    split at found
    · cases found
    · obtain ⟨_, -, made⟩ := Option.map_eq_some_iff.mp found
      cases made

theorem sendInvokeActionMessageToWorker_keeps (inv : Inv none (queues s) s) {appKey : Value} {hop : Hop} {key : String}
    (number : hop.number = s.requests.length) (id : hop.msgID.clones = true) (text : hop.deviceID.text = some key)
    (told : match get s.deviceMap key with
      | .undefined => (missingDeviceError host s hop.deviceID key).isSome = true
      | _ => True)
    (answered : asks s none key = true → host.authThrows appKey = false) :
    Keeps (sendInvokeActionMessageToWorker host s appKey hop) := by
  obtain ⟨noted, posed⟩ := note_inv inv ⟨.hop, hop.caller, key⟩
  have same : queues s = queues (s.note ⟨.hop, hop.caller, key⟩) := rfl
  rw [same, ← number] at noted
  rw [← number] at posed
  simp only [sendInvokeActionMessageToWorker, text]
  split
  next held =>
    change get s.deviceMap key = _ at held
    simp only [held] at told
    split
    next nothing =>
      change missingDeviceError host s hop.deviceID key = none at nothing
      simp [nothing] at told
    next missing found =>
      have found := missing_supervised found
      change s.supervisor key = _ at found
      have answers : asks s none key = true := by
        simp [asks, held, found]
      exact keeps_ask noted posed (answered answers) ⟨⟨key, posed⟩, id, inv.base.supervisor _ _ found⟩ rfl
    next =>
      exact keeps_refuse noted posed id (show Postable ⟨.undefined, .string "device not found in map"⟩ from ⟨rfl, rfl, rfl⟩)
  next callee held =>
    change get s.deviceMap key = _ at held
    have answers : asks s none key = true := by
      simp [asks, held]
    exact keeps_ask noted posed (answered answers) ⟨posed, text, id, (inv.base.devices _ (lookup_mem (own_lookup held))).1⟩ rfl
  next held =>
    change get s.deviceMap key = _ at held
    have answers : asks s none key = true := by
      simp [asks, held]
    exact keeps_ask noted posed (answered answers) ⟨posed, text, id, inherited_mem held⟩ rfl

theorem onInvokeForeignAction_keeps (inv : Inv none (queues s) s) {data id : Value} {worker : WorkerId}
    (meets : foreignMeets host s data id) : Keeps (onInvokeForeignAction host s data id worker) := by
  obtain ⟨present, clones, key, text, told, answered⟩ := meets
  simp only [onInvokeForeignAction, present, Bool.false_eq_true, if_false]
  exact sendInvokeActionMessageToWorker_keeps inv rfl clones text told answered

end Requests

end Countinghouse.BrokeredRequests
