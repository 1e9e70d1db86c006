import Countinghouse.PeerRuns

/-!
Where invokes come from, and calls after a channel was closed. A caller remembers the worker
of each device that it was granted, whatever became of the channel of the grant, and goes by
the channel that it has with that worker now. Its calls reach a callee that serves the
device in all runs in which that channel is the one of the device's last grant. A channel
that was reopened for another device is not: its callee has not heard of this one.
-/

namespace Countinghouse.PeerInvokes

open PeerBroker PeerGrants PeerHandlers PeerRuns

/-- An open end that a worker uses for another one. -/
def Live (s : State) (w other : WorkerId) (e : End) : Prop :=
  (s.workers w).peerChannels other = some e ∧ s.port e ≠ .closed

theorem not_live {s : State} {w other : WorkerId} {e : End} (free : noLive s w other = true) :
    ¬ Live s w other e := by
  rintro ⟨inUse, isOpen⟩
  simp only [noLive, inUse, decide_eq_true_eq] at free
  exact isOpen free

/-! The steps that send an invoke for a call. -/
section Origin

variable {s : State} {w : WorkerId}

inductive Issues (s : State) : Action → Flight → Prop where
  | call {w : WorkerId} {d : DeviceId} {appKey : AppKey} {route : Route} {e : End}
      (known : (s.workers w).peerDeviceWorkerMap d = some route) (live : Live s w route.worker e) :
      Issues s (.call w d appKey) (issued w route d e)
  /-- A grant brings the channel that the waiting calls go out on. -/
  | taken {w target : WorkerId} {d : DeviceId} {chan : Nat} {rest : List ToWorker}
      (queued : s.inbox w = .grant d target true chan :: rest) (free : noLive s w target = true) :
      Issues s (.next w) (issued w ⟨target, chan⟩ d ⟨chan, .caller⟩)
  | waiting {w target : WorkerId} {d : DeviceId} {port : Bool} {chan : Nat} {rest : List ToWorker} {e : End}
      (queued : s.inbox w = .grant d target port chan :: rest)
      (pending : (s.workers w).pendingPeerInvokes d ≠ none) (live : Live s w target e) :
      Issues s (.next w) (issued w ⟨target, chan⟩ d e)

theorem taken_noLive (message : ToWorker) (rest : List ToWorker) (other : WorkerId) :
    noLive (s.taken w message rest) w other = noLive s w other := by
  have same := taken_keeps s w (·.peerChannels) message rest (fun _ _ _ => rfl) w
  simp only [noLive, same]
  rfl

theorem grant_flights {d : DeviceId} {target : WorkerId} {port : Bool} {chan : Nat} {rest : List ToWorker}
    {flight : Flight} (queued : s.inbox w = .grant d target port chan :: rest)
    (member : flight ∈ (onPeerChannelGrant (s.taken w (.grant d target port chan) rest) w d target port chan).flights) :
    flight ∈ s.flights ∨ Issues s (.next w) flight := by
  have pendingKept := taken_keeps s w (·.pendingPeerInvokes) (.grant d target port chan) rest (fun _ _ _ => rfl) w
  have inUseKept := taken_keeps s w (·.peerChannels) (.grant d target port chan) rest (fun _ _ _ => rfl) w
  simp only [onPeerChannelGrant] at member
  split at member
  next usable =>
    simp only [Bool.and_eq_true, taken_noLive] at usable
    obtain ⟨rfl, free⟩ := usable
    obtain ⟨workers, flights, _, same, each⟩ := flush_spec
      ((((s.taken w (.grant d target true chan) rest).withRoute w d ⟨target, chan⟩).withPort chan .caller .held).adopt
        w target ⟨chan, .caller⟩) w d (some ⟨target, chan⟩)
    rw [same] at member
    rcases each flight member with old | ⟨_, route, e, targetIs, inUse, _, rfl⟩
    · exact Or.inl old
    · right
      cases targetIs
      rw [adopt_peerChannels, if_pos ⟨rfl, rfl⟩] at inUse
      cases inUse
      exact Issues.taken queued free
  next =>
    obtain ⟨workers, flights, _, same, each⟩ := flush_spec
      ((s.taken w (.grant d target port chan) rest).withRoute w d ⟨target, chan⟩) w d (some ⟨target, chan⟩)
    rw [same] at member
    rcases each flight member with old | ⟨pending, route, e, targetIs, inUse, isOpen, rfl⟩
    · exact Or.inl old
    · right
      cases targetIs
      rw [withRoute_keeps _ w d _ (·.pendingPeerInvokes) (fun _ _ => rfl), pendingKept] at pending
      rw [withRoute_keeps _ w d _ (·.peerChannels) (fun _ _ => rfl), inUseKept] at inUse
      exact Issues.waiting queued pending ⟨inUse, isOpen⟩

theorem handleNext_flights {flight : Flight} (member : flight ∈ (handleNext s w).flights) :
    flight ∈ s.flights ∨ Issues s (.next w) flight := by
  cases queued : s.inbox w with
  | nil =>
      simp only [handleNext, queued] at member
      exact Or.inl member
  | cons message rest =>
      simp only [handleNext, queued] at member
      split at member
      · exact Or.inl member
      cases message with
      | grant d target port chan => exact grant_flights queued member
      | deny d errCode =>
          left
          obtain ⟨workers, flights, _, same, each⟩ := flush_spec (s.taken w (.deny d errCode) rest) w d none
          simp only [onMessage, onPeerChannelDeny, same] at member
          rcases each flight member with old | ⟨_, route, _, impossible, _⟩
          · exact old
          · cases impossible
      | «open» caller appKey d chan => exact Or.inl member
      | allow caller d chan id =>
          left
          simp only [onMessage, onPeerChannelAllow] at member
          split at member <;> exact member
      | invalidate other chan =>
          left
          simp only [onMessage, onPeerInvalidate] at member
          split at member
          · exact member
          · rw [invalidate_keeps (·.flights) _ fun _ _ _ => rfl] at member
            exact member

theorem answered_flights (ask : Ask) (ok : Bool) : (answered s ask ok).flights = s.flights := by
  cases ask with
  | missing d appKey caller => rfl
  | request d appKey caller callee =>
      simp only [answered, grant, allowDevice]
      split
      · split
        · split <;> rfl
        · rfl
      · rfl
  | recheck caller callee chan appKey d =>
      simp only [answered]
      split
      · rfl
      · exact closeRevoked_keeps (·.flights) (fun _ _ _ _ _ => rfl) _ caller callee chan

/-- An invoke for a call was under way before a step, or is sent by it. -/
theorem step_flights {action : Action} {flight : Flight} (member : flight ∈ (step s action).flights)
    (isIssued : flight.issue ≠ none) :
    flight ∈ s.flights ∨ Issues s action flight := by
  cases action with
  | call worker d appKey =>
      simp only [step] at member
      split at member
      · exact Or.inl member
      · rcases call_spec s worker d appKey with
          ⟨route, e, known, inUse, isOpen, same⟩ | ⟨workers, outbox, _, _, _, _, same⟩
        · rw [same] at member
          rcases List.mem_append.mp member with old | new
          · exact Or.inl old
          · right
            rw [List.mem_singleton.mp new]
            exact Issues.call known ⟨inUse, isOpen⟩
        · rw [same] at member
          exact Or.inl member
  | next worker => exact handleNext_flights member
  | receive worker limited known =>
      left
      simp only [step] at member
      split at member
      · exact member
      · rw [onWorkerMessage_keeps (·.flights) fun _ _ _ _ _ => rfl] at member
        exact member
  | answer place ok =>
      left
      simp only [step] at member
      split at member
      · exact member
      · rw [answered_flights] at member
        exact member
  | recheck =>
      left
      simp only [step, recheckGrants] at member
      split at member <;> exact member
  | purge worker =>
      left
      simp only [step] at member
      rw [invalidateWorker_keeps (·.flights) fun _ _ _ _ _ => rfl] at member
      exact member
  | reload worker =>
      left
      simp only [step] at member
      split at member <;> exact member
  | portClose e =>
      left
      simp only [step] at member
      split at member
      · rw [invalidate_keeps (·.flights) _ fun _ _ _ => rfl] at member
        exact member
      · exact member
  | deliver place => exact Or.inl (List.mem_of_mem_eraseIdx member)
  | post e d =>
      left
      simp only [step] at member
      split at member
      · rcases List.mem_append.mp member with old | new
        · exact old
        · rw [List.mem_singleton.mp new] at isIssued
          exact absurd rfl isIssued
      · exact member
  | ended worker =>
      left
      simp only [step, endWith] at member
      rw [denyAll_keeps (·.flights) fun _ _ => rfl] at member
      exact member
  | online d worker => exact Or.inl member
  | exit worker => exact Or.inl member

end Origin

/-! Calls on the channel of their grant. -/
section Calls

variable {s : State} {w : WorkerId}

/-- An open channel that a worker uses for another one is this one. -/
def usesOnly (s : State) (w other : WorkerId) (chan : Nat) : Bool :=
  match (s.workers w).peerChannels other with
  | none => true
  | some e => s.port e = .closed || e.chan = chan

/-- No call for a device meets an open channel with the device's worker other than the
one that the last grant of the device was for: neither when it is made nor, when it has
to wait, when the grant comes. -/
def onItsGrant (s : State) : Action → Bool
  | .call w d _ =>
      match (s.workers w).peerDeviceWorkerMap d with
      | none => true
      | some route => usesOnly s w route.worker route.grant
  | .next w =>
      match s.inbox w with
      | .grant d target _ chan :: _ =>
          (s.workers w).pendingPeerInvokes d = none || usesOnly s w target chan
      | _ => true
  | _ => true

theorem usesOnly_live {other : WorkerId} {chan : Nat} {e : End} (only : usesOnly s w other chan = true)
    (live : Live s w other e) :
    e.chan = chan := by
  simp only [usesOnly, live.1, Bool.or_eq_true, decide_eq_true_eq] at only
  rcases only with shut | same
  · exact absurd shut live.2
  · exact same

theorem caller_side {target : WorkerId} {e : End} (sane : Sane s) (parties : Parties s e.chan w target)
    (mine : s.owner e = w) :
    e.side = .caller := by
  cases side : e.side with
  | caller => rfl
  | callee =>
      -- a worker is not the callee of its own channel
      have distinct := sane.facts.distinct e.chan parties.1
      rw [State.owner, side] at mine
      exact absurd (parties.2.1.trans mine.symm) distinct

/-- An invoke that goes to the callee of the channel of its grant. -/
def OnGrant (flight : Flight) : Prop :=
  ∀ issue, flight.issue = some issue → flight.chan = issue.grant ∧ flight.towards = .callee

theorem issued_on_grant {target : WorkerId} {chan : Nat} {d : DeviceId} {e : End} (sane : Sane s)
    (parties : Parties s chan w target) (live : Live s w target e) (same : e.chan = chan) :
    OnGrant (issued w ⟨target, chan⟩ d e) := by
  obtain ⟨_, mine, _, _⟩ := sane.opens.ends w target e live.1
  subst same
  have side := caller_side sane parties mine
  intro issue isIssue
  cases isIssue
  exact ⟨rfl, by rw [issued, side]; rfl⟩

theorem issues_on_grant {action : Action} {flight : Flight} (sane : Sane s) (condition : onItsGrant s action = true)
    (issues : Issues s action flight) :
    OnGrant flight := by
  cases issues with
  | @call w d appKey route e known live =>
      simp only [onItsGrant, known] at condition
      exact issued_on_grant sane (sane.facts.routes w d route known).1 live (usesOnly_live condition live)
  | taken queued free =>
      intro issue isIssue
      cases isIssue
      exact ⟨rfl, rfl⟩
  | @waiting w target d port chan rest e queued pending live =>
      simp only [onItsGrant, queued, Bool.or_eq_true, decide_eq_true_eq] at condition
      have routed : Routed s w target chan d := sane.facts.mail w (.grant d target port chan) (by simp [queued])
      rcases condition with none | only
      · exact absurd none pending
      · exact issued_on_grant sane routed.1 live (usesOnly_live only live)

theorem run_on_grants (actions : List Action)
    (meets : ∀ entry ∈ steps actions State.fresh, onItsGrant entry.1 entry.2 = true) :
    ∀ flight ∈ (run actions State.fresh).flights, OnGrant flight := by
  have kept : Sane (run actions State.fresh) ∧ ∀ flight ∈ (run actions State.fresh).flights, OnGrant flight := by
    apply run_keeps (fun s => Sane s ∧ ∀ flight ∈ s.flights, OnGrant flight)
      (fun s action => onItsGrant s action = true) _ actions State.fresh _ meets
    · rintro s action ⟨sane, before⟩ condition
      refine ⟨step_sane sane action, ?_⟩
      intro flight member issue isIssue
      rcases step_flights member (by simp [isIssue]) with old | issues
      · exact before flight old issue isIssue
      · exact issues_on_grant sane condition issues issue isIssue
    · refine ⟨⟨facts_fresh, opens_fresh⟩, ?_⟩
      intro flight member
      cases member
  exact kept.2

/-- What reaches a callee that serves the device is not refused. -/
theorem ready_verdict {flight : Flight} (towards : flight.towards = .callee)
    (ready : Ready s flight.chan flight.deviceID) :
    verdict s flight = .run ∨ verdict s flight = .waits ∨ verdict s flight = .lost := by
  simp only [verdict, towards, Channel.port]
  cases far : (s.channels flight.chan).far with
  | transit => simp
  | closed => simp
  | held =>
      simp only [Ready, far] at ready
      simp at ready
      simp [ready]

/-- The call waits for a grant that was asked for. -/
def Brokered (s : State) (w : WorkerId) (d : DeviceId) (appKey : AppKey) : Prop :=
  (step s (.call w d appKey)).flights = s.flights ∧
    ((step s (.call w d appKey)).workers w).pendingPeerInvokes d ≠ none ∧
    ((s.workers w).pendingPeerInvokes d = none →
      (step s (.call w d appKey)).outbox w = s.outbox w ++ [.request d appKey])

/-- The call is on its way to the callee of a channel that serves the device. -/
def RunsOnGrant (s : State) (w : WorkerId) (d : DeviceId) (appKey : AppKey) : Prop :=
  ∃ flight, (step s (.call w d appKey)).flights = s.flights ++ [flight] ∧ flight.deviceID = d ∧
    flight.towards = .callee ∧ Ready s flight.chan d

theorem call_served {d : DeviceId} {appKey : AppKey} (sane : Sane s) (alive : (s.workers w).ended = false)
    (condition : onItsGrant s (.call w d appKey) = true) :
    Brokered s w d appKey ∨ RunsOnGrant s w d appKey := by
  have calls : step s (.call w d appKey) = invokeActionViaPeerChannel s w d appKey := by simp [step, alive]
  rcases call_spec s w d appKey with
    ⟨route, e, known, inUse, isOpen, same⟩ | ⟨workers, outbox, _, pending, _, asked, same⟩
  · right
    have onGrant := issues_on_grant sane condition (Issues.call known ⟨inUse, isOpen⟩) _ rfl
    refine ⟨issued w route d e, by rw [calls, same], rfl, onGrant.2, ?_⟩
    rw [onGrant.1]
    exact (sane.facts.routes w d route known).2
  · left
    refine ⟨by rw [calls, same], ?_, ?_⟩
    · rw [calls, same]
      exact pending
    · intro none
      rw [calls, same]
      exact asked none

/-- Calls are brokered again or served in every run in which each meets the channel of its
device's last grant. -/
theorem calls_rebrokered_or_served (actions : List Action)
    (meets : ∀ entry ∈ steps actions State.fresh, onItsGrant entry.1 entry.2 = true) :
    (∀ flight ∈ (run actions State.fresh).flights, flight.issue ≠ none →
      verdict (run actions State.fresh) flight = .run ∨ verdict (run actions State.fresh) flight = .waits ∨
        verdict (run actions State.fresh) flight = .lost) ∧
    ∀ w d appKey, ((run actions State.fresh).workers w).ended = false →
      onItsGrant (run actions State.fresh) (.call w d appKey) = true →
        Brokered (run actions State.fresh) w d appKey ∨ RunsOnGrant (run actions State.fresh) w d appKey := by
  have sane := run_sane actions
  constructor
  · intro flight member isIssued
    obtain ⟨issue, isIssue⟩ := Option.ne_none_iff_exists'.mp isIssued
    have onGrant := run_on_grants actions meets flight member issue isIssue
    have routed := sane.facts.flights flight member issue isIssue
    apply ready_verdict onGrant.2
    rw [onGrant.1]
    exact routed.2
  · intro w d appKey alive condition
    exact call_served sane alive condition

/-- A worker that reloads gets its channel closed, and the next call opens another. -/
def rebrokered : List Action :=
  [.online "b" 2, .call 1 "b" "k", .receive 1 false false, .answer 0 true, .next 2, .next 1, .deliver 0,
    .reload 2, .receive 2 false false, .next 1, .portClose ⟨0, .callee⟩,
    .call 1 "b" "k", .receive 1 false false, .answer 0 true, .next 2, .next 1]

theorem calls_served_after_reload :
    (run rebrokered State.fresh).flights = [⟨1, .callee, "b", some ⟨1, 2, 1⟩⟩] ∧
      ∀ flight ∈ (run rebrokered State.fresh).flights, flight.issue ≠ none →
        verdict (run rebrokered State.fresh) flight = .run ∨
          verdict (run rebrokered State.fresh) flight = .waits ∨
          verdict (run rebrokered State.fresh) flight = .lost :=
  ⟨by decide, (calls_rebrokered_or_served rebrokered (by decide)).1⟩

/-- Worker 1 is granted devices b and c of worker 2. The channel is closed when worker 2
reloads, and reopened by a call for c. -/
def reopened : List Action :=
  [.online "b" 2, .online "c" 2, .call 1 "b" "k", .receive 1 false false, .answer 0 true, .next 2, .next 1,
    .deliver 0, .call 1 "c" "k", .receive 1 false false, .answer 0 true, .next 2, .receive 2 false false, .next 1,
    .deliver 0, .reload 2, .receive 2 false false, .next 1, .portClose ⟨0, .callee⟩, .call 1 "c" "k",
    .receive 1 false false, .answer 0 true, .next 2, .next 1, .deliver 0]

/-- The next call for b is sent on the new channel and refused there. All of userAuth's
answers were good. -/
theorem call_refused_after_reopening :
    ((run reopened State.fresh).channels 0).near = .closed ∧
      ((run reopened State.fresh).channels 0).far = .closed ∧
      (run reopened State.fresh).flights = [] ∧
      (step (run reopened State.fresh) (.call 1 "b" "k")).flights = [⟨1, .callee, "b", some ⟨1, 2, 0⟩⟩] ∧
      verdict (step (run reopened State.fresh) (.call 1 "b" "k")) ⟨1, .callee, "b", some ⟨1, 2, 0⟩⟩ =
        .PEER_NOT_GRANTED := by
  decide

end Calls

end Countinghouse.PeerInvokes
