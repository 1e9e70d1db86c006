import Countinghouse.PeerGrants

/-!
What a worker does with its channels: ends are closed and taken into use, calls are made, and
the messages that it handles leave what is known of the channels as it is.
-/

namespace Countinghouse.PeerHandlers

open PeerBroker PeerGrants Streams

/-! Ends that are closed or taken into use. -/
section Ends

variable {s : State} {w target : WorkerId} {chan : Nat} {e : End}

theorem invalidate_sane (sane : Sane s) (taken : s.port e ≠ .transit) : Sane (invalidate s e) := by
  rcases invalidate_spec s e with ⟨_, same⟩ | ⟨workers, same, unlinks⟩
  · rw [same]
    exact sane
  have grows : Grows s { s.withPort e.chan e.side .closed with workers := workers } :=
    withPort_grows (Or.inr rfl)
  have port := withPort_port s e.chan e.side .closed
  have far : ∀ chan, ((s.withPort e.chan e.side .closed).channels chan).far =
      if chan = e.chan ∧ .callee = e.side then .closed else (s.channels chan).far :=
    fun chan => port chan .callee
  have allowed := withPort_keeps s e.chan e.side .closed (·.allowed) (fun _ _ => rfl) (fun _ _ => rfl)
  have owner := fun side => withPort_keeps s e.chan e.side .closed (·.owner side)
    (fun _ _ => by cases side <;> rfl) (fun _ _ => by cases side <;> rfl)
  rw [same]
  constructor
  · exact sane.facts.edit grows fun w => (unlinks w).peerDeviceWorkerMap
  apply sane.opens.edit grows
  · exact fun w => (unlinks w).lastOpen
  · intro w dead
    rw [(unlinks w).ended]
    exact dead
  · intro chan d member
    rw [allowed] at member
    exact sane.opens.allowed chan d member
  · intro chan transit
    rw [far] at transit
    rw [allowed]
    split at transit
    · cases transit
    · exact sane.opens.unopened chan transit
  · intro w other found inUse
    have before : (s.workers w).peerChannels other = some found := by
      rcases (unlinks w).peerChannels other with kept | ⟨gone, _⟩
      · rw [← kept]
        exact inUse
      · rw [gone] at inUse
        cases inUse
    obtain ⟨known, mine, theirs, held⟩ := sane.opens.ends w other found before
    refine ⟨known, ?_, ?_, ?_⟩
    · rw [owner]
      exact mine
    · rw [owner]
      exact theirs
    · rw [port]
      split
      · simp
      · exact held
  · intro chan closed
    rw [far]
    split
    · rfl
    · exact closed
  · intro w caller chan inUse
    rcases (unlinks w).peerChannels caller with kept | ⟨_, was⟩
    · exact Or.inl (kept.trans inUse)
    · -- the end that is forgotten is the closed one
      rw [was] at inUse
      cases inUse
      exact Or.inr (by simp [far])
  · intro w caller chan inUse
    rcases (unlinks w).peerChannels caller with kept | ⟨gone, _⟩
    · exact kept.symm.trans inUse
    · rw [gone] at inUse
      cases inUse
  · intro w caller appKey d chan _ transit
    right
    rw [far]
    split
    next changed =>
      obtain ⟨rfl, side⟩ := changed
      exact absurd (by rw [State.port, ← side]; exact transit) taken
    next => exact transit

/-- The caller takes its port while it has no other open channel with the callee. -/
theorem adopt_sane (sane : Sane s) (parties : Parties s chan w target) (free : noLive s w target = true) :
    Sane ((s.withPort chan .caller .held).adopt w target ⟨chan, .caller⟩) := by
  have grows : Grows s ((s.withPort chan .caller .held).adopt w target ⟨chan, .caller⟩) :=
    withPort_grows (Or.inl rfl)
  have port := withPort_port s chan .caller .held
  have far : ∀ other, ((s.withPort chan .caller .held).channels other).far = (s.channels other).far := by
    intro other
    have unchanged := port other .callee
    simpa [Channel.port] using unchanged
  have allowed := withPort_keeps s chan .caller .held (·.allowed) (fun _ _ => rfl) (fun _ _ => rfl)
  have owner := fun side => withPort_keeps s chan .caller .held (·.owner side)
    (fun _ _ => by cases side <;> rfl) (fun _ _ => by cases side <;> rfl)
  have inUse := adopt_peerChannels (s.withPort chan .caller .held) w target ⟨chan, .caller⟩
  have keeps := fun {γ : Type} (field : Worker → γ) =>
    adopt_keeps (s.withPort chan .caller .held) w target ⟨chan, .caller⟩ field
  constructor
  · exact sane.facts.edit grows (keeps (·.peerDeviceWorkerMap) fun _ _ => rfl)
  apply sane.opens.edit grows
  · exact keeps (·.lastOpen) fun _ _ => rfl
  · intro other dead
    exact (keeps (·.ended) (fun _ _ => rfl) other).trans dead
  · intro other d member
    rw [allowed] at member
    exact sane.opens.allowed other d member
  · intro other transit
    rw [far] at transit
    rw [allowed]
    exact sane.opens.unopened other transit
  · intro v about e found
    rw [owner, owner, port]
    have found := (inUse v about).symm.trans found
    by_cases mine : v = w ∧ about = target
    · obtain ⟨rfl, rfl⟩ := mine
      simp only [and_self, if_true, Option.some.injEq] at found
      subst found
      exact ⟨parties.1, parties.2.1, parties.2.2, by simp⟩
    · rw [if_neg mine] at found
      obtain ⟨known, mine, theirs, held⟩ := sane.opens.ends v about e found
      refine ⟨known, mine, theirs, ?_⟩
      split
      · simp
      · exact held
  · intro other closed
    rw [far]
    exact closed
  · intro v caller other before
    by_cases mine : v = w ∧ caller = target
    · -- the end that is replaced was closed
      obtain ⟨rfl, rfl⟩ := mine
      have shut : s.port ⟨other, .callee⟩ = .closed := by
        simpa [noLive, before] using free
      right
      rw [far]
      exact shut
    · left
      exact (inUse v caller).trans (by rw [if_neg mine]; exact before)
  · intro v caller other found
    have found := (inUse v caller).symm.trans found
    by_cases mine : v = w ∧ caller = target
    · rw [if_pos mine] at found
      cases found
    · rw [if_neg mine] at found
      exact found
  · intro v caller appKey d other _ transit
    right
    rw [far]
    exact transit

/-- A worker that ends closes all its ports. -/
theorem exits_sane (sane : Sane s) : Sane (exits s w) := by
  have far : ∀ chan, ((exits s w).channels chan).far =
      if (s.channels chan).callee = w then .closed else (s.channels chan).far := fun _ => rfl
  have keeps := fun {γ : Type} (field : Worker → γ) => withWorker_keeps s field w
    fun old => { old with ended := true }
  have grows : Grows s (exits s w) := by
    apply grows_of_edit
    · exact fun _ => rfl
    · exact fun _ => rfl
    · exact fun _ => rfl
    · intro chan _ d ready
      by_cases mine : (s.channels chan).callee = w
      · exact Or.inr (Or.inl (by simp [mine]))
      · simpa [Ready, mine] using ready
  constructor
  · exact sane.facts.edit grows (keeps (·.peerDeviceWorkerMap) rfl)
  apply sane.opens.edit grows
  · exact keeps (·.lastOpen) rfl
  · intro other dead
    by_cases same : other = w
    · subst same
      simp [State.withWorker]
    · simpa [State.withWorker, put_other _ _ same] using dead
  · exact sane.opens.allowed
  · intro chan transit
    by_cases mine : (s.channels chan).callee = w
    · simp [mine] at transit
    · exact sane.opens.unopened chan (by simpa [mine] using transit)
  · intro v other e inUse
    have before : (s.workers v).peerChannels other = some e :=
      (congrFun (keeps (·.peerChannels) rfl v) other).symm.trans inUse
    obtain ⟨known, mine, theirs, held⟩ := sane.opens.ends v other e before
    refine ⟨known, ?_, ?_, ?_⟩
    · exact (exits_owner s w e.chan e.side).trans mine
    · exact (exits_owner s w e.chan e.side.other).trans theirs
    · intro transit
      have port := (exits_port s w e.chan e.side).symm.trans transit
      split at port
      · cases port
      · exact held port
  · intro chan closed
    simp [closed]
  · intro v caller chan inUse
    exact Or.inl ((congrFun (keeps (·.peerChannels) rfl v) caller).trans inUse)
  · intro v caller chan inUse
    exact (congrFun (keeps (·.peerChannels) rfl v) caller).symm.trans inUse
  · intro v caller appKey d chan sent transit
    by_cases mine : (s.channels chan).callee = w
    · -- the open is for the worker that ends
      have party : (s.channels chan).callee = v := (sane.facts.mail v _ sent).1.2.2
      rw [mine] at party
      subst party
      left
      simp [State.withWorker]
    · right
      simpa [mine] using transit

end Ends

/-! Calls and the messages that a worker handles. -/
section Handlers

variable {s : State} {w : WorkerId}

/-- The calls that wait change, and invokes go out on the routes of a worker. -/
theorem calls_sane {workers : WorkerId → Worker} {outbox : WorkerId → List ToMain} {flights : List Flight}
    (sane : Sane s) (only : WaitsOnly s.workers workers)
    (replies : ∀ w id, .allowed id ∈ outbox w → .allowed id ∈ s.outbox w)
    (each : ∀ flight ∈ flights, flight ∈ s.flights ∨
      ∃ route d e, Routed s w route.worker route.grant d ∧ flight = issued w route d e) :
    Sane { s with workers := workers, outbox := outbox, flights := flights } := by
  constructor
  · exact
      { sane.facts with
        replies := fun w id member => sane.facts.replies w id (replies w id member)
        routes := by
          intro w d route found
          have found : (workers w).peerDeviceWorkerMap d = some route := found
          rw [only w] at found
          exact sane.facts.routes w d route found
        flights := by
          intro flight member issue hasIssue
          rcases each flight member with old | ⟨route, d, e, routed, rfl⟩
          · exact sane.facts.flights flight old issue hasIssue
          · cases hasIssue
            exact routed }
  · have same : Opens { s with workers := workers } := by
      apply sane.opens.workers
      · exact fun w => by rw [only w]
      · exact fun w => by rw [only w]
      · exact fun w => by rw [only w]
    exact { same with }

theorem call_sane (sane : Sane s) (d : DeviceId) (appKey : AppKey) :
    Sane (invokeActionViaPeerChannel s w d appKey) := by
  rcases call_spec s w d appKey with
    ⟨route, e, known, _, _, same⟩ | ⟨workers, outbox, only, _, grown, _, same⟩
  · rw [same]
    apply calls_sane sane (waits_only_refl _) (fun _ _ member => member)
    intro flight member
    rcases List.mem_append.mp member with old | new
    · exact Or.inl old
    · exact Or.inr ⟨route, d, e, sane.facts.routes w d route known, List.mem_singleton.mp new⟩
  · rw [same]
    apply calls_sane sane only _ (fun _ member => Or.inl member)
    · exact w
    · intro v id member
      rcases grown v with kept | request
      · rw [kept] at member
        exact member
      · rw [request] at member
        simpa using member

theorem flush_sane {target : Option Route} (sane : Sane s) (d : DeviceId)
    (routed : ∀ route, target = some route → Routed s w route.worker route.grant d) :
    Sane (flushPendingPeerInvokes s w d target) := by
  obtain ⟨workers, flights, only, same, each⟩ := flush_spec s w d target
  rw [same]
  apply calls_sane sane only (fun _ _ member => member)
  intro flight member
  rcases each flight member with old | ⟨_, route, e, targetIs, _, _, new⟩
  · exact Or.inl old
  · exact Or.inr ⟨route, d, e, routed route targetIs, new⟩

theorem taken_sane {message : ToWorker} {rest : List ToWorker} (sane : Sane s)
    (queued : s.inbox w = message :: rest) (notOpen : ∀ about, openOf about message = none) :
    Sane (s.taken w message rest) := by
  constructor
  · exact sane.facts.taken queued
  · exact sane.opens.taken queued notOpen

theorem withRoute_sane {d : DeviceId} {route : Route} (sane : Sane s)
    (routed : Routed s w route.worker route.grant d) :
    Sane (s.withRoute w d route) := by
  have keeps := fun {γ : Type} (field : Worker → γ) => withRoute_keeps s w d route field
  constructor
  · exact
      { sane.facts with
        routes := by
          intro v other found known
          rw [withRoute_route] at known
          by_cases mine : v = w ∧ other = d
          · obtain ⟨rfl, rfl⟩ := mine
            simp only [and_self, if_true, Option.some.injEq] at known
            subst known
            exact routed
          · rw [if_neg mine] at known
            exact sane.facts.routes v other found known }
  · apply sane.opens.workers
    · exact keeps (·.ended) fun _ _ => rfl
    · exact keeps (·.peerChannels) fun _ _ => rfl
    · exact keeps (·.lastOpen) fun _ _ => rfl

theorem grant_sane {target : WorkerId} {chan : Nat} (sane : Sane s) (d : DeviceId) (port : Bool)
    (routed : Routed s w target chan d) :
    Sane (onPeerChannelGrant s w d target port chan) := by
  have mapped : Sane (s.withRoute w d ⟨target, chan⟩) := withRoute_sane sane routed
  simp only [onPeerChannelGrant]
  split
  next usable =>
    simp only [Bool.and_eq_true] at usable
    have free := (noLive_withRoute s w d ⟨target, chan⟩ target).trans usable.2
    apply flush_sane (adopt_sane mapped routed.1 free)
    intro route same
    cases same
    exact routed.grow (withPort_grows (Or.inl rfl))
  next =>
    apply flush_sane mapped
    intro route same
    cases same
    exact routed

theorem serve_grows (chan : Nat) (d : DeviceId) :
    Grows s (s.withChannel chan fun channel => { channel with allowed := d :: channel.allowed }) := by
  have keeps := fun {γ : Type} (field : Channel → γ) => withChannel_keeps s field chan
    fun channel => { channel with allowed := d :: channel.allowed }
  apply grows_of_edit
  · exact keeps (·.caller) rfl
  · exact keeps (·.callee) rfl
  · exact keeps (·.first) rfl
  · intro other _ device ready
    by_cases same : other = chan
    · subst same
      rcases ready with member | closed | waiting
      · exact Or.inl (by simp [member])
      · exact Or.inr (Or.inl (by simpa using closed))
      · exact Or.inr (Or.inr (by simpa using waiting))
    · simpa [Ready, put_other _ _ same] using ready

/-- The callee's end in use serves one more device. -/
theorem serve_sane {chan : Nat} {d : DeviceId} (sane : Sane s) (granted : Granted s chan d)
    (taken : s.port ⟨chan, .callee⟩ ≠ .transit) :
    Sane (s.withChannel chan fun channel => { channel with allowed := d :: channel.allowed }) := by
  have keeps := fun {γ : Type} (field : Channel → γ) => withChannel_keeps s field chan
    fun channel => { channel with allowed := d :: channel.allowed }
  have grows := serve_grows (s := s) chan d
  constructor
  · exact sane.facts.edit grows fun _ => rfl
  apply sane.opens.edit grows
  · exact fun _ => rfl
  · exact fun _ dead => dead
  · intro other device member
    by_cases same : other = chan
    · subst same
      simp only [put_same, List.mem_cons] at member
      rcases member with rfl | old
      · exact granted
      · exact sane.opens.allowed other device old
    · rw [put_other _ _ same] at member
      exact sane.opens.allowed other device member
  · intro other transit
    by_cases same : other = chan
    · subst same
      rw [put_same] at transit
      exact absurd transit taken
    · rw [put_other _ _ same] at transit ⊢
      exact sane.opens.unopened other transit
  · intro v about e inUse
    obtain ⟨known, mine, theirs, held⟩ := sane.opens.ends v about e inUse
    refine ⟨known, ?_, ?_, ?_⟩
    · exact (keeps (·.owner e.side) (by cases e.side <;> rfl) e.chan).trans mine
    · exact (keeps (·.owner e.side.other) (by cases e.side <;> rfl) e.chan).trans theirs
    · intro transit
      exact held ((keeps (·.port e.side) (by cases e.side <;> rfl) e.chan).symm.trans transit)
  · intro other closed
    exact (keeps (·.far) rfl other).trans closed
  · exact fun _ _ _ inUse => Or.inl inUse
  · exact fun _ _ _ inUse => inUse
  · intro v caller appKey device other _ transit
    exact Or.inr ((keeps (·.far) rfl other).trans transit)

theorem allow_sane {caller : WorkerId} {d : DeviceId} {chan id : Nat} (sane : Sane s)
    (addressed : Addressed s w (.allow caller d chan id)) (last : (s.workers w).lastOpen caller = some chan) :
    Sane (onPeerChannelAllow s w caller d id) := by
  obtain ⟨parties, granted, known, ticket⟩ := addressed
  have added (edited : State) (same : Sane edited) (grows : Grows s edited) (ready : Ready edited chan d) :
      Sane (edited.sendMain w (.allowed id)) := by
    constructor
    · apply same.facts.sendMain
      intro other isAllowed
      cases isAllowed
      rw [grows.tickets id known, ticket]
      exact ⟨Nat.lt_of_lt_of_le known grows.ids, ready⟩
    · exact { same.opens with }
  have here := (sane.opens.opened w caller chan last).2
  simp only [onPeerChannelAllow]
  split
  next serving inUse =>
    -- the end in use is the one of the last open, which is the channel of the allow
    have same : serving = chan := by
      have served := sane.opens.served w caller serving inUse
      rw [last] at served
      exact (Option.some.inj served).symm
    subst same
    have taken := (sane.opens.ends w caller _ inUse).2.2.2
    apply added _ (serve_sane sane granted taken) (serve_grows _ _)
    exact Or.inl (by simp [State.withChannel])
  next others =>
    rcases here with inUse | closed
    · exact absurd inUse (others chan)
    · exact added s sane (Grows.refl s) (Or.inr (Or.inl closed))

/-- Opens for one caller come in the order of their channels. -/
theorem opens_rise {message : ToWorker} {about : WorkerId} {chan : Nat} {last : Option Nat}
    (fits : fitsOpen about last message) (above : ∃ earlier, last = some earlier ∧ chan ≤ earlier) :
    ∃ earlier, nextOpen about last message = some earlier ∧ chan ≤ earlier := by
  obtain ⟨earlier, rfl, above⟩ := above
  cases message with
  | «open» caller appKey d opened =>
      by_cases same : caller = about
      · have order := fits same earlier rfl
        exact ⟨opened, by simp [nextOpen, openOf, same], by omega⟩
      · exact ⟨earlier, by simp [nextOpen, openOf, same], above⟩
  | _ => exact ⟨earlier, rfl, above⟩

section Opening

variable {caller : WorkerId} {appKey : AppKey} {d : DeviceId} {chan : Nat} {rest : List ToWorker}

/-- The state once the callee has taken its port. -/
def openedState (s : State) (w caller : WorkerId) (appKey : AppKey) (d : DeviceId) (chan : Nat)
    (rest : List ToWorker) : State :=
  onPeerChannelOpen (s.taken w (.open caller appKey d chan) rest) w caller d chan

theorem opened_channel (other : Nat) (differs : other ≠ chan) :
    (openedState s w caller appKey d chan rest).channels other = s.channels other := by
  change (s.withChannel chan fun channel => { channel with far := .held, allowed := [d] }).channels other = _
  exact withChannel_other s _ differs

theorem opened_chan :
    (openedState s w caller appKey d chan rest).channels chan =
      { s.channels chan with far := .held, allowed := [d] } := by
  change (s.withChannel chan fun channel => { channel with far := .held, allowed := [d] }).channels chan = _
  exact withChannel_same s _ _

theorem opened_owner (other : Nat) (side : Side) :
    ((openedState s w caller appKey d chan rest).channels other).owner side = (s.channels other).owner side := by
  by_cases same : other = chan
  · subst same
    rw [opened_chan]
    cases side <;> rfl
  · rw [opened_channel other same]

theorem opened_keeps {γ : Type} (field : Worker → γ)
    (keeps : ∀ worker table, field { worker with peerChannels := table } = field worker) (v : WorkerId) :
    field ((openedState s w caller appKey d chan rest).workers v) =
      field ((s.taken w (.open caller appKey d chan) rest).workers v) := by
  rw [openedState, onPeerChannelOpen]
  exact adopt_keeps _ w caller _ field keeps v

theorem opened_peerChannels (v about : WorkerId) :
    ((openedState s w caller appKey d chan rest).workers v).peerChannels about =
      if v = w ∧ about = caller then some ⟨chan, .callee⟩ else (s.workers v).peerChannels about := by
  simp only [openedState, onPeerChannelOpen, adopt_peerChannels]
  split
  · rfl
  · exact congrFun (taken_keeps s w (·.peerChannels) _ rest (fun _ _ _ => rfl) v) about

theorem opened_lastOpen (v about : WorkerId) :
    ((openedState s w caller appKey d chan rest).workers v).lastOpen about =
      if v = w ∧ about = caller then some chan else (s.workers v).lastOpen about := by
  rw [opened_keeps (·.lastOpen) fun _ _ => rfl]
  by_cases mine : v = w
  · subst mine
    rw [taken_lastOpen]
    by_cases named : about = caller
    · simp [nextOpen, openOf, named]
    · simp [nextOpen, openOf, named, Ne.symm named]
  · simp [(taken_other mine).1, mine]

theorem opened_grows (first : (s.channels chan).first = d) (untaken : (s.channels chan).far = .transit)
    (nothing : (s.channels chan).allowed = []) :
    Grows (s.taken w (.open caller appKey d chan) rest) (openedState s w caller appKey d chan rest) := by
  have keeps := fun {γ : Type} (field : Channel → γ) =>
    withChannel_keeps (s.taken w (.open caller appKey d chan) rest) field chan
      fun channel => { channel with far := .held, allowed := [d] }
  apply grows_of_edit
  · exact keeps (·.caller) rfl
  · exact keeps (·.callee) rfl
  · exact keeps (·.first) rfl
  · intro other _ device ready
    by_cases same : other = chan
    · -- on its way it served the first device only
      subst same
      have ready : Ready s other device := ready
      simp only [Ready, untaken, nothing, first] at ready
      simp at ready
      subst ready
      exact Or.inl (by simp)
    · simpa [Ready, withChannel_other _ _ same] using ready

theorem opened_opens (sane : Sane s) (queued : s.inbox w = .open caller appKey d chan :: rest)
    (untaken : (s.channels chan).far = .transit) :
    Opens (openedState s w caller appKey d chan rest) := by
  have here : ToWorker.open caller appKey d chan ∈ s.inbox w := by simp [queued]
  obtain ⟨parties, isFirst⟩ := sane.facts.mail w _ here
  have grows : Grows _ (openedState s w caller appKey d chan rest) :=
    opened_grows isFirst untaken (sane.opens.unopened chan untaken)
  constructor
  · intro other device member
    by_cases same : other = chan
    · subst same
      rw [opened_chan] at member
      rw [List.mem_singleton.mp member, ← isFirst]
      exact sane.facts.first other parties.1
    · rw [opened_channel other same] at member
      exact sane.opens.allowed other device member
  · intro other transit
    by_cases same : other = chan
    · subst same
      rw [opened_chan] at transit
      cases transit
    · rw [opened_channel other same] at transit ⊢
      exact sane.opens.unopened other transit
  · intro v about e inUse
    simp only [State.owner, State.peer, State.port, opened_owner]
    rw [opened_peerChannels] at inUse
    split at inUse
    next mine =>
      obtain ⟨rfl, rfl⟩ := mine
      cases inUse
      refine ⟨parties.1, parties.2.2, parties.2.1, ?_⟩
      rw [opened_chan]
      simp [Channel.port]
    next =>
      obtain ⟨known, mine, theirs, held⟩ := sane.opens.ends v about e inUse
      refine ⟨known, mine, theirs, ?_⟩
      by_cases same : e.chan = chan
      · rw [same, opened_chan]
        cases side : e.side with
        | caller =>
            rw [State.port, same, side] at held
            exact held
        | callee => simp [Channel.port]
      · rw [opened_channel e.chan same]
        exact held
  · intro v about
    rw [opened_keeps (·.lastOpen) fun _ _ => rfl]
    exact taken_sound (·.lastOpen about) queued (taken_lastOpen about) (fun v => sane.opens.stream v about) v
  · intro entry member
    have current := sane.opens.current entry member
    rw [← taken_latestOpen queued] at current
    rw [latestOpen, opened_keeps (·.lastOpen) fun _ _ => rfl]
    exact current
  · intro v about other last
    rw [opened_lastOpen] at last
    rw [opened_peerChannels]
    split at last
    next mine =>
      cases last
      obtain ⟨rfl, rfl⟩ := mine
      have parties : Parties (s.taken v (.open about appKey d chan) rest) chan about v := parties
      exact ⟨parties.grow grows, Or.inl (by simp)⟩
    next apart =>
      obtain ⟨others, inUse⟩ := sane.opens.opened v about other last
      have others : Parties (s.taken w (.open caller appKey d chan) rest) other about v := others
      refine ⟨others.grow grows, ?_⟩
      rw [if_neg apart]
      rcases inUse with inUse | closed
      · exact Or.inl inUse
      · right
        have differs : other ≠ chan := by
          rintro rfl
          rw [untaken] at closed
          cases closed
        rw [opened_channel other differs]
        exact closed
  · intro v about other inUse
    rw [opened_peerChannels] at inUse
    rw [opened_lastOpen]
    split at inUse
    next mine =>
      cases inUse
      rw [if_pos mine]
    next apart =>
      rw [if_neg apart]
      exact sane.opens.served v about other inUse
  · intro v about key device other member
    rw [opened_keeps (·.ended) fun _ _ => rfl,
      taken_keeps s w (·.ended) (.open caller appKey d chan) rest (fun _ _ _ => rfl)]
    have member : ToWorker.open about key device other ∈ (s.taken w (.open caller appKey d chan) rest).inbox v := member
    have before := taken_member queued member
    -- a further open of this channel would be of the same caller, and after it
    have differs : other ≠ chan := by
      rintro rfl
      have others := (sane.facts.mail v _ before).1
      have callerIs : about = caller := others.2.1.symm.trans parties.2.1
      have workerIs : v = w := others.2.2.symm.trans parties.2.2
      subst callerIs workerIs
      rw [taken_inbox] at member
      have later := sane.opens.stream v about
      rw [queued] at later
      have start : ∃ earlier, nextOpen about ((s.workers v).lastOpen about) (.open about appKey d other) =
          some earlier ∧ other ≤ earlier := ⟨other, by simp [nextOpen, openOf], Nat.le_refl _⟩
      obtain ⟨last, ⟨earlier, lastIs, above⟩, fits⟩ := sound_member
        (fun last => ∃ earlier, last = some earlier ∧ other ≤ earlier) later.2
        (fun _ _ _ fits above => opens_rise fits above) start member
      have below := fits rfl earlier lastIs
      omega
    rw [opened_channel other differs]
    exact sane.opens.openings v about key device other before

theorem opened_sane (sane : Sane s) (queued : s.inbox w = .open caller appKey d chan :: rest)
    (alive : (s.workers w).ended = false) :
    Sane (openedState s w caller appKey d chan rest) := by
  have here : ToWorker.open caller appKey d chan ∈ s.inbox w := by simp [queued]
  have untaken : (s.channels chan).far = .transit := by
    simpa [alive] using sane.opens.openings w caller appKey d chan here
  have nothing := sane.opens.unopened chan untaken
  have first : (s.channels chan).first = d := (sane.facts.mail w _ here).2
  constructor
  · exact (sane.facts.taken queued).edit (opened_grows first untaken nothing)
      (opened_keeps (·.peerDeviceWorkerMap) fun _ _ => rfl)
  · exact opened_opens sane queued untaken

end Opening

theorem handleNext_sane (sane : Sane s) : Sane (handleNext s w) := by
  cases queued : s.inbox w with
  | nil => simpa only [handleNext, queued] using sane
  | cons message rest =>
      by_cases dead : (s.workers w).ended = true
      · simpa only [handleNext, queued, if_pos dead] using sane
      have addressed := sane.facts.mail w message (by simp [queued])
      simp only [handleNext, queued, if_neg dead]
      cases message with
      | grant d target port chan =>
          have taken := taken_sane sane queued fun _ => rfl
          exact grant_sane taken d port addressed
      | deny d errCode =>
          have taken := taken_sane sane queued fun _ => rfl
          simp only [onMessage, onPeerChannelDeny]
          apply flush_sane taken d
          intro route impossible
          cases impossible
      | «open» caller appKey d chan => exact opened_sane sane queued (by simpa using dead)
      | allow caller d chan id =>
          have taken := taken_sane sane queued fun _ => rfl
          apply allow_sane taken addressed
          have stream := sane.opens.stream w caller
          rw [queued] at stream
          exact (taken_lastOpen caller).trans (stream.1 rfl)
      | invalidate other chan =>
          have taken := taken_sane sane queued fun _ => rfl
          simp only [onMessage, onPeerInvalidate]
          split
          · exact taken
          next e inUse => exact invalidate_sane taken (taken.opens.ends w other e inUse).2.2.2


end Handlers

end Countinghouse.PeerHandlers
