import Countinghouse.PeerRevocation

/-!
Where the invoke of a call goes. A caller looks up the worker of the device and takes the
channel in its place for that worker, whichever of the two opened it. In the runs of PeerPorts
that is the channel of the device's grant, unless the broker has dropped it since: the place
holds the channel of the last port, and no port for this worker comes before the drop.
-/

namespace Countinghouse.PeerDirection

open PeerBroker PeerGrants PeerHandlers PeerRuns PeerInvokes PeerPorts PeerRevocation

/-! Entries of the registry. -/
section Registry

variable {s : State} {w : WorkerId}

theorem answered_entries {ask : Ask} {ok : Bool} {entry : Entry}
    (member : entry ∈ (answered s ask ok).channelRegistry) :
    (∃ old ∈ s.channelRegistry, old.chan = entry.chan) ∨ entry.chan = s.nextChan := by
  cases ask with
  | missing d appKey caller => exact Or.inl ⟨entry, member, rfl⟩
  | request d appKey caller callee =>
      cases ok with
      | false => exact Or.inl ⟨entry, member, rfl⟩
      | true =>
          simp only [answered, if_true, grant] at member
          split at member
          next known found =>
            have mapped : entry ∈ s.channelRegistry.map fun other =>
                if other = known then { other with grants := other.grants.insert (appKey, d) } else other := by
              simp only [allowDevice] at member
              split at member <;> exact member
            obtain ⟨old, wasKnown, same⟩ := List.mem_map.mp mapped
            refine Or.inl ⟨old, wasKnown, ?_⟩
            rw [← same]
            split <;> rfl
          next =>
            rcases List.mem_append.mp member with old | new
            · exact Or.inl ⟨entry, old, rfl⟩
            · cases List.mem_singleton.mp new
              exact Or.inr rfl
  | recheck caller callee chan appKey d =>
      left
      simp only [answered, closeRevoked] at member
      split at member
      · exact ⟨entry, member, rfl⟩
      · split at member
        · exact ⟨entry, member, rfl⟩
        · split at member
          · exact ⟨entry, (List.mem_filter.mp member).1, rfl⟩
          · exact ⟨entry, member, rfl⟩

theorem invalidateWorker_entries {entry : Entry} (member : entry ∈ (invalidateWorker s w).channelRegistry) :
    entry ∈ s.channelRegistry := by
  rw [invalidateWorker, tellOthers_keeps (·.channelRegistry) fun _ _ => rfl] at member
  exact (List.mem_filter.mp member).1

/-- A step adds no entry but one for a new channel. -/
theorem step_entries {action : Action} {entry : Entry} (member : entry ∈ (step s action).channelRegistry) :
    (∃ old ∈ s.channelRegistry, old.chan = entry.chan) ∨ entry.chan = s.nextChan := by
  have kept (same : entry ∈ s.channelRegistry) :
      (∃ old ∈ s.channelRegistry, old.chan = entry.chan) ∨ entry.chan = s.nextChan := Or.inl ⟨entry, same, rfl⟩
  cases action with
  | call worker d appKey =>
      apply kept
      simp only [step] at member
      split at member
      · exact member
      · rcases call_spec s worker d appKey with ⟨_, _, _, _, _, same⟩ | ⟨_, _, _, _, _, _, same⟩
        · rw [same] at member
          exact member
        · rw [same] at member
          exact member
  | receive worker limited known =>
      apply kept
      simp only [step] at member
      split at member
      · exact member
      next message rest _ =>
        cases message with
        | request d appKey =>
            simp only [onWorkerMessage, handleRequest] at member
            split at member
            · exact member
            · split at member
              · split at member <;> exact member
              · split at member <;> exact member
        | selfInvalidate =>
            have before := invalidateWorker_entries member
            exact before
        | allowed id =>
            simp only [onWorkerMessage, onAllowed] at member
            split at member <;> exact member
  | answer place ok =>
      simp only [step] at member
      split at member
      · exact kept member
      · have before := answered_entries member
        exact before
  | recheck =>
      apply kept
      simp only [step, recheckGrants] at member
      split at member <;> exact member
  | purge worker =>
      apply kept
      have before := invalidateWorker_entries member
      exact before
  | reload worker =>
      apply kept
      simp only [step] at member
      split at member <;> exact member
  | next worker =>
      apply kept
      rw [step, handleNext_keeps (·.channelRegistry) fun _ _ _ _ _ _ => rfl] at member
      exact member
  | portClose e =>
      apply kept
      simp only [step] at member
      split at member
      · rw [invalidate_keeps (·.channelRegistry) e fun _ _ _ => rfl] at member
        exact member
      · exact member
  | post e d =>
      apply kept
      simp only [step] at member
      split at member <;> exact member
  | ended worker =>
      apply kept
      simp only [step, endWith] at member
      rw [denyAll_keeps (·.channelRegistry) fun _ _ => rfl] at member
      exact member
  | online d worker => exact kept member
  | deliver place => exact kept member
  | exit worker => exact kept member

/-- A channel that was dropped is not registered again. -/
theorem step_dropped {action : Action} {chan : Nat} (known : chan < s.nextChan) (dropped : Dropped s chan) :
    Dropped (step s action) chan := by
  intro entry member sameChan
  rcases step_entries member with ⟨old, wasKnown, same⟩ | new
  · exact dropped old wasKnown (same.trans sameChan)
  · omega

end Registry

/-! The channels that invokes go out on. -/
section Calls

variable {s : State} {w : WorkerId}

/-- A channel is the last for its pair as long as it is registered. -/
theorem registered_latest {target : WorkerId} {chan : Nat} (directed : Directed s)
    (parties : Parties s chan w target) :
    Dropped s chan ∨ latestPort s w target = some chan := by
  by_cases dropped : Dropped s chan
  · exact Or.inl dropped
  · right
    simp only [Dropped, not_forall, not_not] at dropped
    obtain ⟨entry, member, rfl⟩ := dropped
    have others := directed.sane.facts.entries entry member
    have isCaller : entry.caller = w := others.2.1.symm.trans parties.2.1
    have isCallee : entry.callee = target := others.2.2.symm.trans parties.2.2
    rw [← isCaller, ← isCallee]
    exact (directed.ports.current entry member).1

theorem live_on_grant {target : WorkerId} {chan : Nat} {e : End} (directed : Directed s)
    (parties : Parties s chan w target) (live : Live s w target e) (above : chan ≤ e.chan) :
    Dropped s chan ∨ e.chan = chan := by
  rcases registered_latest directed parties with dropped | latest
  · exact Or.inl dropped
  · right
    have last := directed.ports.inUse w target e live.1
    obtain ⟨later, latestIs, below⟩ := latestPort_above directed.ports ⟨e.chan, last, Nat.le_refl _⟩
    rw [latest] at latestIs
    cases latestIs
    omega

/-- The invoke of a call goes to the callee of the channel of its grant, unless that was
dropped. -/
def OnOwnPair (s : State) (flight : Flight) : Prop :=
  ∀ issue, flight.issue = some issue →
    Dropped s issue.grant ∨ (flight.chan = issue.grant ∧ flight.towards = .callee)

theorem issues_on_own_pair {action : Action} {flight : Flight} (directed : Directed s)
    (condition : keepsDirection s action = true) (issues : Issues s action flight) :
    OnOwnPair s flight := by
  have onGrant : ∀ {w target : WorkerId} {d : DeviceId} {chan : Nat} {e : End}, Parties s chan w target →
      Live s w target e → chan ≤ e.chan → OnOwnPair s (issued w ⟨target, chan⟩ d e) := by
    intro w target d chan e parties live above issue isIssue
    cases isIssue
    rcases live_on_grant directed parties live above with dropped | same
    · exact Or.inl dropped
    · exact Or.inr (issued_on_grant directed.sane parties live same _ rfl)
  cases issues with
  | @call w d appKey route e known live =>
      have parties := (directed.sane.facts.routes w d route known).1
      obtain ⟨later, last, above⟩ := directed.ports.routes w d route known
      rw [directed.ports.inUse w route.worker e live.1] at last
      cases last
      exact onGrant parties live above
  | taken queued free =>
      intro issue isIssue
      cases isIssue
      exact Or.inr ⟨rfl, rfl⟩
  | @waiting w target d port chan rest e queued pending live =>
      have routed : Routed s w target chan d := directed.sane.facts.mail w (.grant d target port chan) (by simp [queued])
      cases port with
      | true =>
          -- it would be given a port while it has an open end
          simp only [keepsDirection, givenFree, queued] at condition
          exact absurd live (not_live condition)
      | false =>
          have fits := directed.ports.stream w target
          rw [queued] at fits
          obtain ⟨later, last, above⟩ := fits.1 rfl
          rw [directed.ports.inUse w target e live.1] at last
          cases last
          exact onGrant routed.1 live above

theorem run_on_own_pairs (actions : List Action)
    (meets : ∀ entry ∈ steps actions State.fresh, keepsDirection entry.1 entry.2 = true) :
    ∀ flight ∈ (run actions State.fresh).flights, OnOwnPair (run actions State.fresh) flight := by
  have kept : Directed (run actions State.fresh) ∧
      ∀ flight ∈ (run actions State.fresh).flights, OnOwnPair (run actions State.fresh) flight := by
    apply run_keeps (fun s => Directed s ∧ ∀ flight ∈ s.flights, OnOwnPair s flight)
      (fun s action => keepsDirection s action = true) _ actions State.fresh _ meets
    · rintro s action ⟨directed, before⟩ condition
      refine ⟨step_directed directed action condition, ?_⟩
      intro flight member issue isIssue
      have settled : OnOwnPair s flight ∧ issue.grant < s.nextChan := by
        rcases step_flights member (by simp [isIssue]) with old | issues
        · exact ⟨before flight old, (directed.sane.facts.flights flight old issue isIssue).1.1⟩
        · refine ⟨issues_on_own_pair directed condition issues, ?_⟩
          cases issues with
          | @call w d appKey route e known live =>
              cases isIssue
              exact (directed.sane.facts.routes w d route known).1.1
          | @taken w target d chan rest queued free =>
              cases isIssue
              have routed : Routed s w target chan d :=
                directed.sane.facts.mail w (.grant d target true chan) (by simp [queued])
              exact routed.1.1
          | @waiting w target d port chan rest e queued pending live =>
              cases isIssue
              have routed : Routed s w target chan d :=
                directed.sane.facts.mail w (.grant d target port chan) (by simp [queued])
              exact routed.1.1
      rcases settled.1 issue isIssue with dropped | onGrant
      · exact Or.inl (step_dropped settled.2 dropped)
      · exact Or.inr onGrant
    · refine ⟨directed_fresh, ?_⟩
      intro flight member
      cases member
  exact kept.2

end Calls

/-! The worker that a device was found at when it was asked for. -/
section Hosts

variable {host : DeviceId → WorkerId → Prop} {s : State} {w : WorkerId}

structure Hosted (host : DeviceId → WorkerId → Prop) (s : State) : Prop where
  asks : ∀ d appKey caller callee, .request d appKey caller callee ∈ s.asks → host d callee
  tickets : ∀ id < s.nextId, host (s.tickets id).deviceID (s.tickets id).callee
  mail : ∀ w d target port chan, .grant d target port chan ∈ s.inbox w → host d target
  routes : ∀ w d route, (s.workers w).peerDeviceWorkerMap d = some route → host d route.worker

theorem hosted_fresh : Hosted host State.fresh := by
  constructor <;> simp [State.fresh]

theorem Hosted.send {message : ToWorker} (hosted : Hosted host s)
    (granted : ∀ d target port chan, message = .grant d target port chan → host d target) :
    Hosted host (s.send w message) :=
  { hosted with
    mail := by
      intro v d target port chan member
      rcases (mem_send_inbox s).mp member with old | ⟨_, new⟩
      · exact hosted.mail v d target port chan old
      · exact granted d target port chan new.symm }

theorem Hosted.deny (hosted : Hosted host s) (d : DeviceId) (errCode : DenyCode) :
    Hosted host (s.deny w d errCode) := by
  apply hosted.send
  intro d target port chan impossible
  cases impossible

theorem Hosted.denyAll (ids : List Nat) (hosted : Hosted host s) : Hosted host (denyAll ids s) := by
  induction ids generalizing s with
  | nil => exact hosted
  | cons id rest ih => exact ih (hosted.deny _ _)

theorem Hosted.quiet {deviceMap : DeviceId → Option WorkerId} {registry : List Entry} {asks : List Ask}
    {checks : Nat} {waiting : List Nat} {gone : WorkerId → Bool} {channels : Nat → Channel} {nextChan : Nat}
    {workers : WorkerId → Worker} {outbox : WorkerId → List ToMain} {flights : List Flight} {granted : List Success}
    (hosted : Hosted host s)
    (fewer : ∀ d appKey caller callee, .request d appKey caller callee ∈ asks → host d callee)
    (routes : ∀ w d route, (workers w).peerDeviceWorkerMap d = some route → host d route.worker) :
    Hosted host { s with
      deviceMap := deviceMap, channelRegistry := registry, asks := asks, recheckInFlight := checks,
      waiting := waiting, gone := gone, channels := channels, nextChan := nextChan, workers := workers,
      outbox := outbox, flights := flights, granted := granted } :=
  { hosted with asks := fewer, routes := routes }

theorem Hosted.tellOthers (entries : List Entry) (hosted : Hosted host s) :
    Hosted host (tellOthers w entries s) := by
  induction entries generalizing s with
  | nil => exact hosted
  | cons entry rest ih =>
      apply ih
      apply hosted.send
      intro d target port chan impossible
      cases impossible

theorem Hosted.invalidateWorker (hosted : Hosted host s) : Hosted host (invalidateWorker s w) := by
  apply Hosted.tellOthers
  exact hosted.quiet hosted.asks hosted.routes

theorem Hosted.answered {ask : Ask} (hosted : Hosted host s) (ok : Bool)
    (found : ∀ d appKey caller callee, ask = .request d appKey caller callee → host d callee) :
    Hosted host (answered s ask ok) := by
  cases ask with
  | missing d appKey caller => exact hosted.deny d _
  | request d appKey caller callee =>
      have here := found d appKey caller callee rfl
      cases ok with
      | false => exact hosted.deny d _
      | true =>
          simp only [PeerBroker.answered, if_true, grant]
          split
          next entry known =>
            simp only [allowDevice]
            split
            · apply Hosted.deny
              exact hosted.quiet hosted.asks hosted.routes
            · have sent : Hosted host (s.send entry.callee (.allow entry.caller d entry.chan s.nextId)) := by
                apply hosted.send
                intro d target port chan impossible
                cases impossible
              exact
                { sent with
                  tickets := by
                    intro id isKnown
                    have isKnown : id < s.nextId + 1 := isKnown
                    by_cases new : id = s.nextId
                    · subst new
                      simp only [put_same, (entryFor_some known).2.2]
                      exact here
                    · have old : id < s.nextId := by omega
                      simp only [put_other _ _ new]
                      exact hosted.tickets id old }
          next =>
            apply Hosted.send
            · apply Hosted.send
              · exact hosted.quiet hosted.asks hosted.routes
              · intro d target port chan impossible
                cases impossible
            · intro _ _ _ _ same
              cases same
              exact here
  | recheck caller callee chan appKey d =>
      have counted : Hosted host { s with recheckInFlight := s.recheckInFlight - 1 } :=
        hosted.quiet hosted.asks hosted.routes
      simp only [PeerBroker.answered, closeRevoked]
      split
      · exact counted
      · split
        · exact counted
        · split
          · apply Hosted.send
            · apply Hosted.send
              · exact counted.quiet counted.asks counted.routes
              · intro d target port chan impossible
                cases impossible
            · intro d target port chan impossible
              cases impossible
          · exact counted

theorem Hosted.onWorkerMessage {message : ToMain} (hosted : Hosted host s) (limited known : Bool)
    (mapped : ∀ d w, s.deviceMap d = some w → host d w) (reply : ∀ id, message = .allowed id → id < s.nextId) :
    Hosted host (onWorkerMessage s w limited known message) := by
  cases message with
  | request d appKey =>
      simp only [PeerBroker.onWorkerMessage, handleRequest]
      split
      · exact hosted.deny d _
      · split
        · split
          · apply hosted.quiet _ hosted.routes
            intro d appKey caller callee member
            rcases List.mem_append.mp member with old | new
            · exact hosted.asks d appKey caller callee old
            · cases List.mem_singleton.mp new
          · exact hosted.deny d _
        next callee found =>
          split
          · exact hosted.deny d _
          · apply hosted.quiet _ hosted.routes
            intro d appKey caller callee member
            rcases List.mem_append.mp member with old | new
            · exact hosted.asks d appKey caller callee old
            · cases List.mem_singleton.mp new
              exact mapped _ _ found
  | selfInvalidate => exact hosted.invalidateWorker
  | allowed id =>
      simp only [PeerBroker.onWorkerMessage, onAllowed]
      split
      · apply Hosted.send
        · exact hosted.quiet hosted.asks hosted.routes
        · intro d target port chan same
          cases same
          exact hosted.tickets id (reply id rfl)
      · exact hosted

theorem flush_routes (d : DeviceId) (target : Option Route) (v : WorkerId) :
    ((flushPendingPeerInvokes s w d target).workers v).peerDeviceWorkerMap = (s.workers v).peerDeviceWorkerMap := by
  obtain ⟨workers, flights, only, same, _⟩ := flush_spec s w d target
  rw [same]
  change (workers v).peerDeviceWorkerMap = _
  rw [only v]

/-- A worker learns where a device is from a grant only. -/
theorem handleNext_routes {v : WorkerId} {d : DeviceId} {route : Route}
    (known : ((handleNext s w).workers v).peerDeviceWorkerMap d = some route) :
    (s.workers v).peerDeviceWorkerMap d = some route ∨
      ∃ port chan, .grant d route.worker port chan ∈ s.inbox v := by
  cases queued : s.inbox w with
  | nil =>
      simp only [handleNext, queued] at known
      exact Or.inl known
  | cons message rest =>
      have taken := taken_keeps s w (·.peerDeviceWorkerMap) message rest (fun _ _ _ => rfl) v
      simp only [handleNext, queued] at known
      split at known
      · exact Or.inl known
      cases message with
      | grant device target port chan =>
          simp only [onMessage, onPeerChannelGrant, flush_routes] at known
          have routed : (((s.taken w (.grant device target port chan) rest).withRoute w device
              ⟨target, chan⟩).workers v).peerDeviceWorkerMap d = some route := by
            split at known
            · rw [adopt_keeps _ w target _ (·.peerDeviceWorkerMap) fun _ _ => rfl] at known
              exact known
            · exact known
          rw [withRoute_route] at routed
          split at routed
          next here =>
            obtain ⟨rfl, rfl⟩ := here
            cases routed
            exact Or.inr ⟨port, chan, by simp [queued]⟩
          next =>
            rw [taken] at routed
            exact Or.inl routed
      | deny device errCode =>
          simp only [onMessage, onPeerChannelDeny, flush_routes, taken] at known
          exact Or.inl known
      | «open» caller appKey device chan =>
          simp only [onMessage, onPeerChannelOpen] at known
          rw [adopt_keeps _ w caller _ (·.peerDeviceWorkerMap) fun _ _ => rfl] at known
          exact Or.inl ((congrFun taken d).symm.trans known)
      | allow caller device chan id =>
          left
          rw [← congrFun taken d]
          simp only [onMessage, onPeerChannelAllow] at known
          split at known <;> exact known
      | invalidate other chan =>
          left
          rw [← congrFun taken d]
          simp only [onMessage, onPeerInvalidate] at known
          split at known
          · exact known
          next e _ =>
            rcases invalidate_spec (s.taken w (.invalidate other chan) rest) e with ⟨_, same⟩ | ⟨workers, same, unlinks⟩
            · rw [same] at known
              exact known
            · rw [same] at known
              rw [← (unlinks v).peerDeviceWorkerMap]
              exact known

theorem handleNext_inbox {v : WorkerId} {sent : ToWorker} (member : sent ∈ (handleNext s w).inbox v) :
    sent ∈ s.inbox v := by
  cases queued : s.inbox w with
  | nil =>
      simp only [handleNext, queued] at member
      exact member
  | cons message rest =>
      simp only [handleNext, queued] at member
      split at member
      · exact member
      have kept : (onMessage (s.taken w message rest) w message).inbox = (s.taken w message rest).inbox := by
        cases message with
        | grant device target port chan =>
            simp only [onMessage, onPeerChannelGrant]
            rw [flush_keeps (·.inbox) device _ fun _ _ _ => rfl]
            split <;> rfl
        | deny device errCode => exact flush_keeps (·.inbox) device none fun _ _ _ => rfl
        | «open» caller appKey device chan => rfl
        | allow caller device chan id =>
            simp only [onMessage, onPeerChannelAllow]
            split <;> rfl
        | invalidate other chan =>
            simp only [onMessage, onPeerInvalidate]
            split
            · rfl
            · exact invalidate_keeps (·.inbox) _ fun _ _ _ => rfl
      rw [kept] at member
      exact taken_member queued member

theorem step_hosted (sane : Sane s) (hosted : Hosted host s) (action : Action)
    (mapped : ∀ d w, s.deviceMap d = some w → host d w) :
    Hosted host (step s action) := by
  cases action with
  | call worker d appKey =>
      simp only [step]
      split
      · exact hosted
      · rcases call_spec s worker d appKey with ⟨_, _, _, _, _, same⟩ | ⟨workers, outbox, only, _, _, _, same⟩
        · rw [same]
          exact hosted.quiet hosted.asks hosted.routes
        · rw [same]
          apply hosted.quiet hosted.asks
          intro v device route known
          rw [only v] at known
          exact hosted.routes v device route known
  | receive worker limited known =>
      simp only [step]
      split
      · exact hosted
      next message rest queued =>
        apply Hosted.onWorkerMessage
        · exact hosted.quiet hosted.asks hosted.routes
        · exact mapped
        · rintro id rfl
          exact (sane.facts.replies worker id (by simp [queued])).1
  | answer place ok =>
      simp only [step]
      split
      · exact hosted
      next ask found =>
        apply Hosted.answered
        · apply hosted.quiet _ hosted.routes
          intro d appKey caller callee member
          exact hosted.asks d appKey caller callee (List.mem_of_mem_eraseIdx member)
        · rintro d appKey caller callee rfl
          exact hosted.asks d appKey caller callee (List.mem_of_getElem? found)
  | recheck =>
      simp only [step, recheckGrants]
      split
      · exact hosted
      · apply hosted.quiet _ hosted.routes
        intro d appKey caller callee member
        rcases List.mem_append.mp member with old | new
        · exact hosted.asks d appKey caller callee old
        · simp at new
  | purge worker =>
      apply Hosted.invalidateWorker
      exact hosted.quiet hosted.asks hosted.routes
  | reload worker =>
      simp only [step]
      split
      · exact hosted
      · exact hosted.quiet hosted.asks hosted.routes
  | next worker =>
      have asks : (handleNext s worker).asks = s.asks := handleNext_keeps (·.asks) fun _ _ _ _ _ _ => rfl
      have nextId : (handleNext s worker).nextId = s.nextId := handleNext_keeps (·.nextId) fun _ _ _ _ _ _ => rfl
      have tickets : (handleNext s worker).tickets = s.tickets := handleNext_keeps (·.tickets) fun _ _ _ _ _ _ => rfl
      constructor
      · simp only [step, asks]
        exact hosted.asks
      · simp only [step, nextId, tickets]
        exact hosted.tickets
      · intro v d target port chan member
        exact hosted.mail v d target port chan (handleNext_inbox member)
      · intro v d route known
        rcases handleNext_routes known with old | ⟨port, chan, sent⟩
        · exact hosted.routes v d route old
        · exact hosted.mail v d route.worker port chan sent
  | portClose e =>
      simp only [step]
      split
      · rcases invalidate_spec s e with ⟨_, same⟩ | ⟨workers, same, unlinks⟩
        · rw [same]
          exact hosted
        · rw [same]
          apply hosted.quiet hosted.asks
          intro v d route known
          rw [(unlinks v).peerDeviceWorkerMap] at known
          exact hosted.routes v d route known
      · exact hosted
  | post e d =>
      simp only [step]
      split
      · exact hosted.quiet hosted.asks hosted.routes
      · exact hosted
  | exit worker =>
      apply hosted.quiet hosted.asks
      intro v d route known
      have kept := withWorker_keeps s (·.peerDeviceWorkerMap) worker (fun old => { old with ended := true }) rfl v
      exact hosted.routes v d route ((congrFun kept d).symm.trans known)
  | ended worker =>
      apply Hosted.denyAll
      exact hosted.quiet hosted.asks hosted.routes
  | online d worker => exact hosted.quiet hosted.asks hosted.routes
  | deliver place => exact hosted.quiet hosted.asks hosted.routes

theorem issues_hosted {action : Action} {flight : Flight} {issue : Issue} (hosted : Hosted host s)
    (issues : Issues s action flight) (isIssue : flight.issue = some issue) :
    host flight.deviceID issue.target := by
  cases issues with
  | @call w d appKey route e known live =>
      cases isIssue
      exact hosted.routes w d route known
  | @taken w target d chan rest queued free =>
      cases isIssue
      exact hosted.mail w d target true chan (by simp [queued])
  | @waiting w target d port chan rest e queued pending live =>
      cases isIssue
      exact hosted.mail w d target port chan (by simp [queued])

/-- The main thread knew the device at that worker. -/
def Host (actions : List Action) (d : DeviceId) (w : WorkerId) : Prop :=
  ∃ entry ∈ steps actions State.fresh, entry.1.deviceMap d = some w

theorem run_hosted (actions : List Action) :
    ∀ flight ∈ (run actions State.fresh).flights, ∀ issue, flight.issue = some issue →
      Host actions flight.deviceID issue.target := by
  have kept : Sane (run actions State.fresh) ∧ Hosted (Host actions) (run actions State.fresh) ∧
      ∀ flight ∈ (run actions State.fresh).flights, ∀ issue, flight.issue = some issue →
        Host actions flight.deviceID issue.target := by
    apply run_keeps
      (fun s => Sane s ∧ Hosted (Host actions) s ∧ ∀ flight ∈ s.flights, ∀ issue, flight.issue = some issue →
        Host actions flight.deviceID issue.target)
      (fun s _ => ∀ d w, s.deviceMap d = some w → Host actions d w)
    · rintro s action ⟨sane, hosted, before⟩ mapped
      refine ⟨step_sane sane action, step_hosted sane hosted action mapped, ?_⟩
      intro flight member issue isIssue
      rcases step_flights member (by simp [isIssue]) with old | issues
      · exact before flight old issue isIssue
      · exact issues_hosted hosted issues isIssue
    · refine ⟨⟨facts_fresh, opens_fresh⟩, hosted_fresh, ?_⟩
      intro flight member
      cases member
    · intro entry member d w found
      exact ⟨entry, member, found⟩
  exact kept.2.2

end Hosts

/-! Directions. -/
section Direction

variable {s : State}

/-- The invoke is on the channel opened for its pair, towards the end with `onInvoke`. That
end serves the device, or gets its port in an open for this device, unless a worker has ended. -/
structure Served (s : State) (flight : Flight) (issue : Issue) : Prop where
  pair : Parties s flight.chan issue.caller issue.target
  towards : flight.towards = .callee
  verdict : verdict s flight = .run ∨
    (verdict s flight = .waits ∧ (s.channels flight.chan).first = flight.deviceID) ∨
    (verdict s flight = .lost ∧ ((s.workers issue.caller).ended = true ∨ (s.workers issue.target).ended = true))

theorem on_grant_served {flight : Flight} {issue : Issue} (directed : Directed s) (member : flight ∈ s.flights)
    (isIssue : flight.issue = some issue) (chanIs : flight.chan = issue.grant) (towards : flight.towards = .callee) :
    Dropped s issue.grant ∨ Served s flight issue := by
  obtain ⟨pair, ready⟩ := directed.sane.facts.flights flight member issue isIssue
  rw [← chanIs] at pair ready
  cases far : (s.channels flight.chan).far with
  | closed =>
      have answer : verdict s flight = .lost := by simp [verdict, towards, Channel.port, far]
      rcases directed.drops.shut ⟨flight.chan, .callee⟩ far with dropped | callee | caller
      · left
        rw [← chanIs]
        exact dropped
      · right
        have ended : (s.workers (s.channels flight.chan).callee).ended = true := callee
        rw [pair.2.2] at ended
        exact ⟨pair, towards, Or.inr (Or.inr ⟨answer, Or.inr ended⟩)⟩
      · right
        have ended : (s.workers (s.channels flight.chan).caller).ended = true := caller
        rw [pair.2.1] at ended
        exact ⟨pair, towards, Or.inr (Or.inr ⟨answer, Or.inl ended⟩)⟩
  | transit =>
      right
      have answer : verdict s flight = .waits := by simp [verdict, towards, Channel.port, far]
      have nothing := directed.sane.opens.unopened flight.chan far
      simp only [Ready, nothing, far] at ready
      simp at ready
      exact ⟨pair, towards, Or.inr (Or.inl ⟨answer, ready⟩)⟩
  | held =>
      right
      simp only [Ready, far] at ready
      simp at ready
      have answer : verdict s flight = .run := by simp [verdict, towards, Channel.port, far, ready]
      exact ⟨pair, towards, Or.inl answer⟩

/-- Each invoke of a call is for a device that its target was known to host, and is served on
its own pair's channel unless the broker has dropped the pair since the grant. -/
def KeepsDirection (actions : List Action) : Prop :=
  ∀ flight ∈ (run actions State.fresh).flights, ∀ issue, flight.issue = some issue →
    Host actions flight.deviceID issue.target ∧
      (Dropped (run actions State.fresh) issue.grant ∨ Served (run actions State.fresh) flight issue)

theorem invokes_keep_direction (actions : List Action)
    (meets : ∀ entry ∈ steps actions State.fresh, keepsDirection entry.1 entry.2 = true) :
    KeepsDirection actions := by
  intro flight member issue isIssue
  refine ⟨run_hosted actions flight member issue isIssue, ?_⟩
  rcases run_on_own_pairs actions meets flight member issue isIssue with dropped | ⟨chanIs, towards⟩
  · exact Or.inl dropped
  · exact on_grant_served (run_directed actions meets) member isIssue chanIs towards

/-- Worker 2 calls worker 1 after its channel from there was dropped and both have closed it. -/
def turnedRound : List Action :=
  [.online "b" 2, .online "a" 1, .call 1 "b" "k", .receive 1 false false, .answer 0 true, .next 2, .next 1,
    .deliver 0, .recheck, .answer 0 false, .next 1, .next 2, .call 2 "a" "k", .receive 2 false false, .answer 0 true,
    .next 1, .next 2]

theorem turned_round_keeps_direction :
    KeepsDirection turnedRound ∧ (run turnedRound State.fresh).flights = [⟨1, .callee, "a", some ⟨2, 1, 1⟩⟩] ∧
      verdict (run turnedRound State.fresh) ⟨1, .callee, "a", some ⟨2, 1, 1⟩⟩ = .run :=
  ⟨invokes_keep_direction turnedRound (by decide), by decide, by decide⟩

/-- With both directions open worker 2's invoke goes to worker 1's end of the other channel,
which has no `onInvoke`. -/
theorem invoke_turned_back :
    ¬ KeepsDirection bothWays ∧
      (⟨0, .caller, "a", some ⟨2, 1, 1⟩⟩ : Flight) ∈ (run bothWays State.fresh).flights ∧
      (run bothWays State.fresh).channelRegistry = [⟨1, 2, 0, [("k", "b")]⟩, ⟨2, 1, 1, [("k", "a")]⟩] ∧
      verdict (run bothWays State.fresh) ⟨0, .caller, "a", some ⟨2, 1, 1⟩⟩ = .PEER_NO_HANDLER := by
  have sent : (⟨0, .caller, "a", some ⟨2, 1, 1⟩⟩ : Flight) ∈ (run bothWays State.fresh).flights := by decide
  have registered : (run bothWays State.fresh).channelRegistry =
      [⟨1, 2, 0, [("k", "b")]⟩, ⟨2, 1, 1, [("k", "a")]⟩] := by decide
  refine ⟨?_, sent, registered, by decide⟩
  intro keeps
  rcases (keeps _ sent _ rfl).2 with dropped | served
  · exact dropped ⟨2, 1, 1, [("k", "a")]⟩ (by simp [registered]) rfl
  · cases served.towards

end Direction

end Countinghouse.PeerDirection
