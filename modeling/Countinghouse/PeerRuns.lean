import Countinghouse.PeerHandlers

/-!
The main thread's side of peer channels, and whole runs: what is known of the channels holds in
every state that is reached, and each success is an answer of userAuth.
-/

namespace Countinghouse.PeerRuns

open PeerBroker PeerGrants PeerHandlers Streams

/-! The main thread. -/
section Broker

variable {s : State} {w caller callee : WorkerId}

/-- Entries go or get further grants, questions come and go, messages are taken. -/
theorem quiet_sane {deviceMap : DeviceId → Option WorkerId} {registry : List Entry} {asks : List Ask}
    {checks : Nat} {waiting : List Nat} {gone : WorkerId → Bool} {outbox : WorkerId → List ToMain}
    {flights : List Flight} (sane : Sane s)
    (entries : ∀ entry ∈ registry, ∃ old ∈ s.channelRegistry,
      old.caller = entry.caller ∧ old.callee = entry.callee ∧ old.chan = entry.chan)
    (distinct : ∀ d appKey caller callee, .request d appKey caller callee ∈ asks → caller ≠ callee)
    (replies : ∀ w, ∀ message ∈ outbox w, message ∈ s.outbox w)
    (fewer : ∀ flight ∈ flights, flight.issue ≠ none → flight ∈ s.flights) :
    Sane { s with
      deviceMap := deviceMap, channelRegistry := registry, asks := asks, recheckInFlight := checks,
      waiting := waiting, gone := gone, outbox := outbox, flights := flights } := by
  constructor
  · exact
      { sane.facts with
        entries := by
          intro entry member
          obtain ⟨old, known, callerIs, calleeIs, chanIs⟩ := entries entry member
          have parties := sane.facts.entries old known
          rw [callerIs, calleeIs, chanIs] at parties
          exact parties
        asks := distinct
        replies := fun w id member => sane.facts.replies w id (replies w _ member)
        flights := by
          intro flight member issue isIssued
          have old := fewer flight member (by simp [isIssued])
          exact sane.facts.flights flight old issue isIssued }
  · exact
      { sane.opens with
        current := by
          intro entry member
          obtain ⟨old, known, callerIs, calleeIs, chanIs⟩ := entries entry member
          have current := sane.opens.current old known
          rw [callerIs, calleeIs, chanIs] at current
          exact current }

theorem deny_sane (sane : Sane s) (d : DeviceId) (errCode : DenyCode) : Sane (s.deny caller d errCode) := by
  constructor
  · exact sane.facts.send trivial
  · apply sane.opens.sendOther
    · intro caller appKey d chan
      simp
    · intro caller d chan id
      simp

theorem denyAll_sane (ids : List Nat) (sane : Sane s) : Sane (denyAll ids s) := by
  induction ids generalizing s with
  | nil => exact sane
  | cons id rest ih => exact ih (deny_sane sane _ _)

theorem invalidated_sane {other : WorkerId} {chan : Nat} (sane : Sane s)
    (parties : Parties s chan w other ∨ Parties s chan other w) :
    Sane (s.send w (.invalidate other chan)) := by
  constructor
  · exact sane.facts.send parties
  · apply sane.opens.sendOther
    · intro caller appKey d chan
      simp
    · intro caller d chan id
      simp

theorem tellOthers_sane (entries : List Entry) (sane : Sane s)
    (known : ∀ entry ∈ entries, Parties s entry.chan entry.caller entry.callee ∧ involves w entry = true) :
    Sane (tellOthers w entries s) := by
  induction entries generalizing s with
  | nil => exact sane
  | cons entry rest ih =>
      apply ih
      · obtain ⟨parties, mine⟩ := known entry List.mem_cons_self
        apply invalidated_sane sane
        by_cases isCaller : entry.caller = w
        · right
          rw [if_pos isCaller, ← isCaller]
          exact parties
        · left
          rw [if_neg isCaller]
          have isCallee : entry.callee = w := by simpa [involves, isCaller] using mine
          rw [← isCallee]
          exact parties
      · intro other member
        exact known other (List.mem_cons_of_mem _ member)

theorem invalidateWorker_sane (sane : Sane s) : Sane (invalidateWorker s w) := by
  apply tellOthers_sane
  · apply quiet_sane sane _ sane.facts.asks (fun _ _ member => member) (fun _ member _ => member)
    intro entry member
    exact ⟨entry, (List.mem_filter.mp member).1, rfl, rfl, rfl⟩
  · intro entry member
    obtain ⟨known, mine⟩ := List.mem_filter.mp member
    exact ⟨sane.facts.entries entry known, mine⟩

theorem entryFor_some {entry : Entry} (found : entryFor s caller callee = some entry) :
    entry ∈ s.channelRegistry ∧ entry.caller = caller ∧ entry.callee = callee := by
  have named := List.find?_some found
  simp only [Bool.and_eq_true, decide_eq_true_eq] at named
  exact ⟨List.mem_of_find?_eq_some found, named⟩

theorem entryFor_none (found : entryFor s caller callee = none) {entry : Entry}
    (member : entry ∈ s.channelRegistry) (isCaller : entry.caller = caller) :
    entry.callee ≠ callee := by
  have misses := List.find?_eq_none.mp found entry member
  simpa [isCaller] using misses

theorem closeRevoked_sane {chan : Nat} (sane : Sane s) : Sane (closeRevoked s caller callee chan) := by
  simp only [closeRevoked]
  split
  · exact sane
  next entry found =>
    obtain ⟨known, callerIs, calleeIs⟩ := entryFor_some found
    split
    next chanIs =>
      have parties := sane.facts.entries entry known
      rw [callerIs, calleeIs, chanIs] at parties
      apply invalidated_sane
      · apply invalidated_sane
        · apply quiet_sane sane _ sane.facts.asks (fun _ _ member => member) (fun _ member _ => member)
          intro other member
          exact ⟨other, (List.mem_filter.mp member).1, rfl, rfl, rfl⟩
        · exact Or.inl parties
      · exact Or.inr parties
    next => exact sane

/-- A channel that no message is about yet. -/
def madeChannel (s : State) (d : DeviceId) (appKey : AppKey) (caller callee : WorkerId) : State :=
  let portFor (worker : WorkerId) : Port := if (s.workers worker).ended then .closed else .transit
  { s with
    channels := put s.channels s.nextChan ⟨caller, callee, portFor caller, portFor callee, [], d⟩
    nextChan := s.nextChan + 1
    granted := s.granted ++ [⟨s.nextChan, appKey, d, caller, callee⟩] }

section Opening

variable {d : DeviceId} {appKey : AppKey}

theorem made_old {chan : Nat} (known : chan < s.nextChan) :
    (madeChannel s d appKey caller callee).channels chan = s.channels chan :=
  put_other _ _ (Nat.ne_of_lt known)

theorem made_new : (madeChannel s d appKey caller callee).channels s.nextChan =
    ⟨caller, callee, if (s.workers caller).ended then .closed else .transit,
      if (s.workers callee).ended then .closed else .transit, [], d⟩ :=
  put_same _ _ _

theorem made_grows : Grows s (madeChannel s d appKey caller callee) where
  chans := Nat.le_succ _
  caller := fun _ known => by rw [made_old known]
  callee := fun _ known => by rw [made_old known]
  first := fun _ known => by rw [made_old known]
  ready := by
    intro chan known device ready
    rw [Ready, made_old known]
    exact ready
  granted := fun _ success => List.mem_append_left _ success
  ids := Nat.le_refl _
  tickets := fun _ _ => rfl

theorem made_routed : Routed (madeChannel s d appKey caller callee) caller callee s.nextChan d := by
  constructor
  · exact ⟨Nat.lt_succ_self _, by rw [made_new], by rw [made_new]⟩
  · rw [Ready, made_new]
    by_cases dead : (s.workers callee).ended = true
    · exact Or.inr (Or.inl (by simp [dead]))
    · exact Or.inr (Or.inr ⟨by simp [dead], rfl⟩)

theorem made_sane (sane : Sane s) (apart : caller ≠ callee) : Sane (madeChannel s d appKey caller callee) := by
  have grows : Grows s (madeChannel s d appKey caller callee) := made_grows
  have cases : ∀ {chan}, chan < s.nextChan + 1 → chan < s.nextChan ∨ chan = s.nextChan := by
    intro chan known
    omega
  constructor
  · constructor
    · intro chan known
      rcases cases known with old | rfl
      · rw [made_old old]
        exact sane.facts.distinct chan old
      · rw [made_new]
        exact apart
    · intro chan known
      rcases cases known with old | rfl
      · rw [made_old old]
        exact (sane.facts.first chan old).grow grows
      · rw [made_new]
        exact ⟨⟨s.nextChan, appKey, d, caller, callee⟩, by simp [madeChannel], rfl, rfl⟩
    · intro success member
      rcases List.mem_append.mp member with old | new
      · exact (sane.facts.successes success old).grow grows
      · cases List.mem_singleton.mp new
        exact made_routed.1
    · exact fun entry member => (sane.facts.entries entry member).grow grows
    · exact sane.facts.asks
    · exact fun w message member => (sane.facts.mail w message member).grow grows
    · exact fun id known => (sane.facts.tickets id known).grow grows
    · intro w id member
      obtain ⟨known, ready⟩ := sane.facts.replies w id member
      exact ⟨known, grows.ready _ (sane.facts.tickets id known).1 _ ready⟩
    · exact fun w d route found => (sane.facts.routes w d route found).grow grows
    · exact fun flight member issue issued => (sane.facts.flights flight member issue issued).grow grows
  · constructor
    · intro chan device member
      by_cases new : chan = s.nextChan
      · subst new
        rw [made_new] at member
        cases member
      · simp only [madeChannel, put_other _ _ new] at member
        exact (sane.opens.allowed chan device member).grow grows
    · intro chan transit
      by_cases new : chan = s.nextChan
      · subst new
        rw [made_new]
      · simp only [madeChannel, put_other _ _ new] at transit ⊢
        exact sane.opens.unopened chan transit
    · intro w other e inUse
      obtain ⟨known, mine, theirs, held⟩ := sane.opens.ends w other e inUse
      simp only [State.owner, State.peer, State.port, made_old known]
      exact ⟨Nat.lt_succ_of_lt known, mine, theirs, held⟩
    · exact sane.opens.stream
    · exact sane.opens.current
    · intro w about chan last
      obtain ⟨parties, inUse⟩ := sane.opens.opened w about chan last
      rw [made_old parties.1]
      exact ⟨parties.grow grows, inUse⟩
    · exact sane.opens.served
    · intro w about key device chan member
      have parties := (sane.facts.mail w _ member).1
      rw [made_old parties.1]
      exact sane.opens.openings w about key device chan member

/-- The open is the last that the callee gets for this caller, so the new entry is current. -/
theorem openChannel_sane (sane : Sane s) (apart : caller ≠ callee) (free : entryFor s caller callee = none) :
    Sane (openChannel s d appKey caller callee) := by
  have made : Sane (madeChannel s d appKey caller callee) := made_sane sane apart
  have routed : Routed (madeChannel s d appKey caller callee) caller callee s.nextChan d := made_routed
  have told : Sane ((madeChannel s d appKey caller callee).send callee (.open caller appKey d s.nextChan)) := by
    constructor
    · apply made.facts.send
      exact ⟨routed.1, by rw [made_new]⟩
    · apply made.opens.send
      · rintro about rfl earlier last
        exact latestOpen_known sane.facts sane.opens last
      · intro entry member isCallee
        have known : entry ∈ s.channelRegistry := member
        have differs : caller ≠ entry.caller := by
          rintro rfl
          exact entryFor_none free known rfl isCallee
        simp [openOf, differs]
      · intro about key device chan same
        cases same
        rw [made_new]
        by_cases dead : (s.workers callee).ended = true
        · exact Or.inl dead
        · exact Or.inr (by simp [dead])
  have both : Sane (((madeChannel s d appKey caller callee).send callee (.open caller appKey d s.nextChan)).send
      caller (.grant d callee true s.nextChan)) := by
    constructor
    · exact told.facts.send routed
    · apply told.opens.sendOther
      · intro caller appKey d chan
        simp
      · intro caller d chan id
        simp
  have latest : latestOpen (openChannel s d appKey caller callee) callee caller = some s.nextChan := by
    have toCaller : callee ≠ caller := Ne.symm apart
    simp [latestOpen, openChannel, State.send, put_other _ _ toCaller, nextOpen, openOf]
  constructor
  · exact
      { both.facts with
        entries := by
          intro entry member
          rcases List.mem_append.mp member with old | new
          · exact both.facts.entries entry old
          · cases List.mem_singleton.mp new
            exact routed.1 }
  · exact
      { both.opens with
        current := by
          intro entry member
          rcases List.mem_append.mp member with old | new
          · exact both.opens.current entry old
          · cases List.mem_singleton.mp new
            exact latest }

end Opening

/-- Growth that leaves the channels and everything about them in place. -/
theorem grow_sane {granted : List Success} {tickets : Nat → Ticket} {nextId : Nat}
    {waiting : List Nat} (sane : Sane s)
    (grows : Grows s { s with granted := granted, tickets := tickets, nextId := nextId, waiting := waiting })
    (successes : ∀ success ∈ granted, Parties s success.chan success.caller success.callee)
    (ticketed : ∀ id < nextId, Parties s (tickets id).chan (tickets id).caller (tickets id).callee) :
    Sane { s with granted := granted, tickets := tickets, nextId := nextId, waiting := waiting } := by
  constructor
  · exact
      { sane.facts with
        first := fun chan known => (sane.facts.first chan known).grow grows
        successes := successes
        mail := fun w message member => (sane.facts.mail w message member).grow grows
        tickets := ticketed
        replies := by
          intro w id member
          obtain ⟨known, ready⟩ := sane.facts.replies w id member
          refine ⟨Nat.lt_of_lt_of_le known grows.ids, ?_⟩
          rw [grows.tickets id known]
          exact ready }
  · exact { sane.opens with allowed := fun chan d member => (sane.opens.allowed chan d member).grow grows }

theorem granted_sane {success : Success} (sane : Sane s)
    (parties : Parties s success.chan success.caller success.callee) :
    Sane { s with granted := s.granted ++ [success] } := by
  apply grow_sane sane _ _ sane.facts.tickets
  · exact { Grows.refl s with granted := fun _ member => List.mem_append_left _ member }
  · intro other member
    rcases List.mem_append.mp member with old | new
    · exact sane.facts.successes other old
    · cases List.mem_singleton.mp new
      exact parties

theorem ticket_sane (ticket : Ticket) (sane : Sane s) (parties : Parties s ticket.chan ticket.caller ticket.callee) :
    Sane { s with
      tickets := put s.tickets s.nextId ticket, nextId := s.nextId + 1, waiting := s.waiting ++ [s.nextId] } := by
  apply grow_sane sane
  · exact
      { Grows.refl s with
        ids := Nat.le_succ _
        tickets := fun id known => put_other _ _ (Nat.ne_of_lt known) }
  · exact sane.facts.successes
  · intro id known
    by_cases new : id = s.nextId
    · subst new
      rw [put_same]
      exact parties
    · rw [put_other _ _ new]
      exact sane.facts.tickets id (by omega)

theorem allowDevice_sane {d : DeviceId} {appKey : AppKey} {entry : Entry} (sane : Sane s)
    (known : entry ∈ s.channelRegistry) :
    Sane (allowDevice s d appKey entry) := by
  have parties := sane.facts.entries entry known
  have granted : Sane { s with
      granted := s.granted ++ [⟨entry.chan, appKey, d, entry.caller, entry.callee⟩] } := granted_sane sane parties
  have noted : Sane { s with
      granted := s.granted ++ [⟨entry.chan, appKey, d, entry.caller, entry.callee⟩]
      channelRegistry := s.channelRegistry.map fun other =>
        if other = entry then { other with grants := other.grants.insert (appKey, d) } else other } := by
    apply quiet_sane granted _ sane.facts.asks (fun _ _ member => member) (fun _ member _ => member)
    intro other member
    obtain ⟨old, wasKnown, same⟩ := List.mem_map.mp member
    refine ⟨old, wasKnown, ?_⟩
    rw [← same]
    split <;> exact ⟨rfl, rfl, rfl⟩
  simp only [allowDevice]
  split
  · exact deny_sane noted d _
  next =>
    have ticketed := ticket_sane ⟨entry.caller, entry.callee, d, entry.chan⟩ noted parties
    constructor
    · apply ticketed.facts.send
      have success : Granted { s with
          granted := s.granted ++ [⟨entry.chan, appKey, d, entry.caller, entry.callee⟩] } entry.chan d :=
        ⟨⟨entry.chan, appKey, d, entry.caller, entry.callee⟩, by simp, rfl, rfl⟩
      refine ⟨parties, success, Nat.lt_succ_self _, ?_⟩
      exact put_same _ _ _
    · apply ticketed.opens.send
      · rintro about rfl
        exact sane.opens.current entry known
      · intro other _ _
        rfl
      · intro caller key device chan impossible
        cases impossible

theorem onAllowed_sane {id : Nat} (sane : Sane s) (known : id < s.nextId)
    (ready : Ready s (s.tickets id).chan (s.tickets id).deviceID) :
    Sane (onAllowed s id) := by
  simp only [onAllowed]
  split
  next =>
    have rest : Sane { s with waiting := s.waiting.filter fun other => other != id } :=
      quiet_sane sane (fun entry member => ⟨entry, member, rfl, rfl, rfl⟩) sane.facts.asks
        (fun _ _ member => member) (fun _ member _ => member)
    constructor
    · exact rest.facts.send ⟨sane.facts.tickets id known, ready⟩
    · apply rest.opens.sendOther
      · intro caller appKey d chan
        simp
      · intro caller d chan id
        simp
  next => exact sane

theorem answered_sane {ask : Ask} (sane : Sane s) (ok : Bool)
    (distinct : ∀ d appKey caller callee, ask = .request d appKey caller callee → caller ≠ callee) :
    Sane (answered s ask ok) := by
  cases ask with
  | missing d appKey caller => exact deny_sane sane d _
  | request d appKey caller callee =>
      cases ok with
      | false => exact deny_sane sane d _
      | true =>
          simp only [answered, if_true, grant]
          split
          next entry found => exact allowDevice_sane sane (entryFor_some found).1
          next free => exact openChannel_sane sane (distinct d appKey caller callee rfl) free
  | recheck caller callee chan appKey d =>
      have counted : Sane { s with recheckInFlight := s.recheckInFlight - 1 } :=
        quiet_sane sane (fun entry member => ⟨entry, member, rfl, rfl, rfl⟩) sane.facts.asks
          (fun _ _ member => member) (fun _ member _ => member)
      cases ok with
      | true => exact counted
      | false => exact closeRevoked_sane counted

theorem handleRequest_sane {d : DeviceId} {appKey : AppKey} (sane : Sane s) (known : Bool) :
    Sane (handleRequest s d appKey caller known) := by
  have asking (ask : Ask) (distinct : ∀ d appKey caller callee, ask = .request d appKey caller callee → caller ≠ callee) :
      Sane { s with asks := s.asks ++ [ask] } := by
    apply quiet_sane sane (fun entry member => ⟨entry, member, rfl, rfl, rfl⟩) _
      (fun _ _ member => member) (fun _ member _ => member)
    intro d appKey caller callee member
    rcases List.mem_append.mp member with old | new
    · exact sane.facts.asks d appKey caller callee old
    · exact distinct d appKey caller callee (List.mem_singleton.mp new).symm
  simp only [handleRequest]
  split
  · split
    · apply asking
      intro d appKey caller callee impossible
      cases impossible
    · exact deny_sane sane d _
  next callee found =>
    split
    · exact deny_sane sane d _
    next differs =>
      apply asking
      intro _ _ _ _ same
      cases same
      exact Ne.symm differs

theorem onWorkerMessage_sane {message : ToMain} (sane : Sane s) (limited known : Bool)
    (reply : ∀ id, message = .allowed id → id < s.nextId ∧ Ready s (s.tickets id).chan (s.tickets id).deviceID) :
    Sane (onWorkerMessage s w limited known message) := by
  cases message with
  | request d appKey =>
      cases limited with
      | true => exact deny_sane sane d _
      | false => exact handleRequest_sane sane known
  | selfInvalidate => exact invalidateWorker_sane sane
  | allowed id => exact onAllowed_sane sane (reply id rfl).1 (reply id rfl).2

end Broker

/-- Every step keeps it. -/
theorem step_sane {s : State} (sane : Sane s) (action : Action) : Sane (step s action) := by
  have kept : ∀ entry ∈ s.channelRegistry, ∃ old ∈ s.channelRegistry,
      old.caller = entry.caller ∧ old.callee = entry.callee ∧ old.chan = entry.chan :=
    fun entry member => ⟨entry, member, rfl, rfl, rfl⟩
  cases action with
  | online d worker =>
      exact quiet_sane sane kept sane.facts.asks (fun _ _ member => member) (fun _ member _ => member)
  | call worker d appKey =>
      simp only [step]
      split
      · exact sane
      · exact call_sane sane d appKey
  | receive worker limited known =>
      simp only [step]
      split
      · exact sane
      next message rest queued =>
        apply onWorkerMessage_sane
        · apply quiet_sane sane kept sane.facts.asks _ (fun _ member _ => member)
          intro v sent member
          by_cases same : v = worker
          · subst same
            rw [put_same] at member
            rw [queued]
            exact List.mem_cons_of_mem _ member
          · rw [put_other _ _ same] at member
            exact member
        · rintro id rfl
          exact sane.facts.replies worker id (by simp [queued])
  | answer place ok =>
      simp only [step]
      split
      · exact sane
      next ask found =>
        apply answered_sane
        · apply quiet_sane sane kept _ (fun _ _ member => member) (fun _ member _ => member)
          intro d appKey caller callee member
          exact sane.facts.asks d appKey caller callee (List.mem_of_mem_eraseIdx member)
        · rintro d appKey caller callee rfl
          exact sane.facts.asks d appKey caller callee (List.mem_of_getElem? found)
  | recheck =>
      simp only [step, recheckGrants]
      split
      · exact sane
      · apply quiet_sane sane kept _ (fun _ _ member => member) (fun _ member _ => member)
        intro d appKey caller callee member
        rcases List.mem_append.mp member with old | new
        · exact sane.facts.asks d appKey caller callee old
        · simp at new
  | purge worker =>
      apply invalidateWorker_sane
      exact quiet_sane sane kept sane.facts.asks (fun _ _ member => member) (fun _ member _ => member)
  | reload worker =>
      simp only [step]
      split
      · exact sane
      · constructor
        · apply sane.facts.sendMain
          intro id impossible
          cases impossible
        · exact { sane.opens with }
  | next worker => exact handleNext_sane sane
  | portClose e =>
      simp only [step]
      split
      next ready =>
        apply invalidate_sane sane
        simp only [Bool.and_eq_true, decide_eq_true_eq] at ready
        simp [ready.1]
      next => exact sane
  | deliver place =>
      apply quiet_sane sane kept sane.facts.asks (fun _ _ member => member)
      intro flight member _
      exact List.mem_of_mem_eraseIdx member
  | post e d =>
      simp only [step]
      split
      · apply quiet_sane sane kept sane.facts.asks (fun _ _ member => member)
        intro flight member isIssued
        rcases List.mem_append.mp member with old | new
        · exact old
        · rw [List.mem_singleton.mp new] at isIssued
          simp at isIssued
      · exact sane
  | exit worker => exact exits_sane sane
  | ended worker =>
      apply denyAll_sane
      exact quiet_sane sane kept sane.facts.asks (fun _ _ member => member) (fun _ member _ => member)

theorem run_sane (actions : List Action) : Sane (run actions State.fresh) := by
  apply run_keeps Sane fun _ _ => True
  · intro s action sane _
    exact step_sane sane action
  · exact ⟨facts_fresh, opens_fresh⟩
  · intro entry _
    trivial

/-! A success is an answer of userAuth. -/
section Successes

variable {s : State} {w : WorkerId}

theorem invalidate_keeps {γ : Type} (field : State → γ) (e : End)
    (keeps : ∀ s workers channels, field { s with workers := workers, channels := channels } = field s) :
    field (invalidate s e) = field s := by
  rcases invalidate_spec s e with ⟨_, same⟩ | ⟨workers, same, _⟩
  · rw [same]
  · rw [same]
    exact keeps s workers (s.withPort e.chan e.side .closed).channels

theorem flush_keeps {γ : Type} (field : State → γ) (d : DeviceId) (target : Option Route)
    (keeps : ∀ s workers flights, field { s with workers := workers, flights := flights } = field s) :
    field (flushPendingPeerInvokes s w d target) = field s := by
  obtain ⟨workers, flights, _, same, _⟩ := flush_spec s w d target
  rw [same]
  exact keeps s workers flights

/-- What a worker's handlers leave alone. -/
theorem handleNext_keeps {γ : Type} (field : State → γ)
    (keeps : ∀ s workers channels inbox outbox flights,
      field { s with workers := workers, channels := channels, inbox := inbox, outbox := outbox, flights := flights } =
        field s) :
    field (handleNext s w) = field s := by
  have edit := fun s workers channels => keeps s workers channels s.inbox s.outbox s.flights
  cases queued : s.inbox w with
  | nil => simp only [handleNext, queued]
  | cons message rest =>
      have taken : field (s.taken w message rest) = field s := keeps s _ s.channels _ s.outbox s.flights
      have flush := fun s workers flights => keeps s workers s.channels s.inbox s.outbox flights
      simp only [handleNext, queued]
      split
      · rfl
      cases message with
      | grant d target port chan =>
          simp only [onMessage, onPeerChannelGrant]
          rw [flush_keeps field d _ flush]
          split
          · exact (edit (s.taken w (.grant d target port chan) rest) _ _).trans taken
          · exact (edit _ _ (s.taken w (.grant d target port chan) rest).channels).trans taken
      | deny d errCode => exact (flush_keeps field d none flush).trans taken
      | «open» caller appKey d chan => exact (edit (s.taken w (.open caller appKey d chan) rest) _ _).trans taken
      | allow caller d chan id =>
          have sent : ∀ s channels outbox, field { s with channels := channels, outbox := outbox } = field s :=
            fun s channels outbox => keeps s s.workers channels s.inbox outbox s.flights
          simp only [onMessage, onPeerChannelAllow]
          split
          · exact (sent (s.taken w (.allow caller d chan id) rest) _ _).trans taken
          · exact (sent _ (s.taken w (.allow caller d chan id) rest).channels _).trans taken
      | invalidate other chan =>
          simp only [onMessage, onPeerInvalidate]
          split
          · exact taken
          · exact (invalidate_keeps field _ edit).trans taken

/-- The step in which a success was had: an answer of userAuth to a request of the pair,
when the channel had been opened before, or which opens it. -/
def Answers (entry : State × Action) (success : Success) : Prop :=
  ∃ place, entry.2 = .answer place true ∧
    entry.1.asks[place]? = some (.request success.deviceID success.appKey success.caller success.callee) ∧
    (success.chan < entry.1.nextChan ∨
      (success.chan = entry.1.nextChan ∧ (step entry.1 entry.2).nextChan = success.chan + 1))

theorem step_granted (sane : Sane s) (action : Action) {success : Success}
    (member : success ∈ (step s action).granted) :
    success ∈ s.granted ∨ Answers (s, action) success := by
  cases action with
  | call worker d appKey =>
      left
      simp only [step] at member
      split at member
      · exact member
      · rcases call_spec s worker d appKey with ⟨_, _, _, _, _, same⟩ | ⟨_, _, _, _, _, _, same⟩
        · rw [same] at member
          exact member
        · rw [same] at member
          exact member
  | receive worker limited known =>
      left
      simp only [step] at member
      split at member
      · exact member
      · rw [onWorkerMessage_keeps (·.granted) fun _ _ _ _ _ => rfl] at member
        exact member
  | answer place ok =>
      simp only [step] at member
      split at member
      · exact Or.inl member
      next ask found =>
        cases ask with
        | missing d appKey caller => exact Or.inl member
        | recheck caller callee chan appKey d =>
            left
            simp only [answered] at member
            split at member
            · exact member
            · rw [closeRevoked_keeps (·.granted) fun _ _ _ _ _ => rfl] at member
              exact member
        | request d appKey caller callee =>
            cases ok with
            | false => exact Or.inl member
            | true =>
                simp only [answered, if_true, grant] at member
                split at member
                next entry known =>
                  obtain ⟨registered, callerIs, calleeIs⟩ := entryFor_some known
                  have open' := (sane.facts.entries entry registered).1
                  simp only [allowDevice] at member
                  have added : success ∈ s.granted ++ [⟨entry.chan, appKey, d, entry.caller, entry.callee⟩] := by
                    split at member <;> exact member
                  rcases List.mem_append.mp added with old | new
                  · exact Or.inl old
                  · right
                    cases List.mem_singleton.mp new
                    refine ⟨place, rfl, ?_, Or.inl open'⟩
                    simpa only [callerIs, calleeIs] using found
                next free =>
                  rcases List.mem_append.mp member with old | new
                  · exact Or.inl old
                  · right
                    cases List.mem_singleton.mp new
                    have opens : (step s (.answer place true)).nextChan = s.nextChan + 1 := by
                      simp only [step, found, answered, if_true, grant, free]
                      rfl
                    exact ⟨place, rfl, found, Or.inr ⟨rfl, opens⟩⟩
  | recheck =>
      left
      simp only [step, recheckGrants] at member
      split at member <;> exact member
  | purge worker =>
      left
      simp only [step] at member
      rw [invalidateWorker_keeps (·.granted) fun _ _ _ _ _ => rfl] at member
      exact member
  | reload worker =>
      left
      simp only [step] at member
      split at member <;> exact member
  | next worker =>
      left
      rw [step, handleNext_keeps (·.granted) fun _ _ _ _ _ _ => rfl] at member
      exact member
  | portClose e =>
      left
      simp only [step] at member
      split at member
      · rw [invalidate_keeps (·.granted) e fun _ _ _ => rfl] at member
        exact member
      · exact member
  | post e d =>
      left
      simp only [step] at member
      split at member <;> exact member
  | ended worker =>
      left
      simp only [step, endWith] at member
      rw [denyAll_keeps (·.granted) fun _ _ => rfl] at member
      exact member
  | online d worker => exact Or.inl member
  | deliver place => exact Or.inl member
  | exit worker => exact Or.inl member

theorem run_granted (actions : List Action) (sane : Sane s) {success : Success}
    (member : success ∈ (run actions s).granted) :
    success ∈ s.granted ∨ ∃ entry ∈ steps actions s, Answers entry success := by
  induction actions generalizing s with
  | nil => exact Or.inl member
  | cons action rest ih =>
      rcases ih (step_sane sane action) member with before | ⟨entry, later, answers⟩
      · rcases step_granted sane action before with old | answers
        · exact Or.inl old
        · exact Or.inr ⟨(s, action), List.mem_cons_self, answers⟩
      · exact Or.inr ⟨entry, List.mem_cons_of_mem _ later, answers⟩

end Successes

end Countinghouse.PeerRuns
