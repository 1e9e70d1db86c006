import Countinghouse.PeerInvokes

/-!
Both directions between two workers. The broker has a channel for each ordered pair, but a
worker has one place for all channels with another worker, whoever calls. A port that comes
while the place is taken by an open end is left unused, and an open puts its end there
whatever it held. So an invoke can go the wrong way along a channel, and an invalidation can
close another channel than the one that was dropped.

Neither happens in a run in which the broker opens no channel for a pair while the other
direction has one, and no worker gets a port for a worker that it has an open end for. Then
the ports that a worker gets for another one are those of the channels of the two in the
order in which they were opened, and the place holds the last of them.
-/

namespace Countinghouse.PeerPorts

open PeerBroker PeerGrants PeerHandlers PeerRuns PeerInvokes Streams

/-! The ports that a worker gets for another one. -/
section Stream

variable {s t : State} {w other : WorkerId}

def fitsPort (about : WorkerId) (last : Option Nat) : ToWorker → Prop
  | .grant _ target true chan => target = about → ∀ earlier, last = some earlier → earlier < chan
  | .grant _ target false chan => target = about → ∃ later, last = some later ∧ chan ≤ later
  | .open caller _ _ chan => caller = about → ∀ earlier, last = some earlier → earlier < chan
  | .invalidate other chan => other = about → last = some chan
  | _ => True

/-- The channel of the last port for `about` once the inbox is empty. -/
def latestPort (s : State) (w about : WorkerId) : Option Nat :=
  latest (nextPort about) ((s.workers w).lastPort about) (s.inbox w)

/-- At least that channel. -/
def From (chan : Nat) (last : Option Nat) : Prop := ∃ later, last = some later ∧ chan ≤ later

theorem ports_rise {message : ToWorker} {about : WorkerId} {chan : Nat} {last : Option Nat}
    (fits : fitsPort about last message) (above : From chan last) :
    From chan (nextPort about last message) := by
  obtain ⟨later, rfl, above⟩ := above
  cases message with
  | grant d target port opened =>
      cases port with
      | false => exact ⟨later, rfl, above⟩
      | true =>
          by_cases same : target = about
          · have order := fits same later rfl
            exact ⟨opened, by simp [nextPort, portOf, same], by omega⟩
          · exact ⟨later, by simp [nextPort, portOf, same], above⟩
  | «open» caller appKey d opened =>
      by_cases same : caller = about
      · have order := fits same later rfl
        exact ⟨opened, by simp [nextPort, portOf, same], by omega⟩
      · exact ⟨later, by simp [nextPort, portOf, same], above⟩
  | _ => exact ⟨later, rfl, above⟩

structure Ports (s : State) : Prop where
  stream : ∀ w about, Sound (nextPort about) (fitsPort about) ((s.workers w).lastPort about) (s.inbox w)
  current : ∀ entry ∈ s.channelRegistry,
    latestPort s entry.caller entry.callee = some entry.chan ∧
      latestPort s entry.callee entry.caller = some entry.chan
  /-- The end of the last port is in its place, or closed. -/
  placed : ∀ w other chan, (s.workers w).lastPort other = some chan →
    ∃ side, chan < s.nextChan ∧ s.owner ⟨chan, side⟩ = w ∧ s.peer ⟨chan, side⟩ = other ∧
      ((s.workers w).peerChannels other = some ⟨chan, side⟩ ∨ s.port ⟨chan, side⟩ = .closed)
  inUse : ∀ w other e, (s.workers w).peerChannels other = some e → (s.workers w).lastPort other = some e.chan
  routes : ∀ w d route, (s.workers w).peerDeviceWorkerMap d = some route →
    From route.grant ((s.workers w).lastPort route.worker)
  tickets : ∀ id < s.nextId, From (s.tickets id).chan (latestPort s (s.tickets id).caller (s.tickets id).callee)
  untaken : ∀ w d target chan, .grant d target true chan ∈ s.inbox w →
    (s.workers w).ended = true ∨ (s.channels chan).near = .transit
  dead : ∀ e : End, e.chan < s.nextChan → (s.workers (s.owner e)).ended = true → s.port e = .closed

theorem ports_fresh : Ports State.fresh := by
  constructor <;> simp [State.fresh, Sound]

theorem latestPort_above (ports : Ports s) {about : WorkerId} {chan : Nat}
    (above : From chan ((s.workers w).lastPort about)) :
    From chan (latestPort s w about) :=
  sound_keeps (From chan) (ports.stream w about) (fun _ _ _ fits above => ports_rise fits above) above

theorem latestPort_known (sane : Sane s) (ports : Ports s) {about : WorkerId} {chan : Nat}
    (found : latestPort s w about = some chan) :
    chan < s.nextChan := by
  have known : ∀ chan, latestPort s w about = some chan → chan < s.nextChan := by
    apply sound_keeps (fun last => ∀ chan, last = some chan → chan < s.nextChan) (ports.stream w about)
    · intro message member last fits known chan next
      have addressed := sane.facts.mail w message member
      cases message with
      | grant d target port opened =>
          cases port with
          | false => exact known chan next
          | true =>
              simp only [nextPort, portOf] at next
              split at next
              · cases next
                exact addressed.1.1
              · exact known chan next
      | «open» caller appKey d opened =>
          simp only [nextPort, portOf] at next
          split at next
          · cases next
            exact addressed.1.1
          · exact known chan next
      | _ => exact known chan next
    · intro chan last
      obtain ⟨_, known, _⟩ := ports.placed w about chan last
      exact known
  exact known chan found

theorem latestPort_sent (message : ToWorker) (about : WorkerId) :
    latestPort (s.send w message) w about = nextPort about (latestPort s w about) message := by
  simp [latestPort, State.send]

theorem latestPort_unsent (message : ToWorker) {v about : WorkerId} (noPort : v = w → portOf about message = none) :
    latestPort (s.send w message) v about = latestPort s v about := by
  by_cases same : v = w
  · subst same
    rw [latestPort_sent, nextPort, noPort rfl]
    rfl
  · simp [latestPort, State.send, put_other _ _ same]

/-- A message that fits joins the stream. One with a port is for a pair that has no channel
in either direction. -/
theorem Ports.send {message : ToWorker} (ports : Ports s)
    (fits : ∀ about, fitsPort about (latestPort s w about) message)
    (unregistered : ∀ entry ∈ s.channelRegistry,
      (entry.caller = w → portOf entry.callee message = none) ∧
        (entry.callee = w → portOf entry.caller message = none))
    (onItsWay : ∀ d target chan, message = .grant d target true chan →
      (s.workers w).ended = true ∨ (s.channels chan).near = .transit) :
    Ports (s.send w message) :=
  { ports with
    stream := by
      intro v about
      by_cases same : v = w
      · subst same
        simp only [State.send, put_same, sound_snoc]
        exact ⟨ports.stream v about, fits about⟩
      · simp only [State.send, put_other _ _ same]
        exact ports.stream v about
    current := by
      intro entry member
      obtain ⟨asCaller, asCallee⟩ := unregistered entry member
      rw [latestPort_unsent message asCaller, latestPort_unsent message asCallee]
      exact ports.current entry member
    tickets := by
      intro id known
      have before : From (s.tickets id).chan (latestPort s (s.tickets id).caller (s.tickets id).callee) :=
        ports.tickets id known
      change From (s.tickets id).chan
        (latestPort (s.send w message) (s.tickets id).caller (s.tickets id).callee)
      by_cases same : (s.tickets id).caller = w
      · rw [same] at before ⊢
        rw [latestPort_sent]
        exact ports_rise (fits _) before
      · rw [latestPort_unsent message fun isSame => absurd isSame same]
        exact before
    untaken := by
      intro v d target chan member
      rcases (mem_send_inbox s).mp member with old | ⟨rfl, new⟩
      · exact ports.untaken v d target chan old
      · exact onItsWay d target chan new.symm }

theorem Ports.sendOther {message : ToWorker} (ports : Ports s) (noPort : ∀ about, portOf about message = none)
    (fits : ∀ about, fitsPort about (latestPort s w about) message) :
    Ports (s.send w message) := by
  apply ports.send fits
  · intro entry _
    exact ⟨fun _ => noPort _, fun _ => noPort _⟩
  · rintro d target chan rfl
    simpa [portOf] using noPort target

/-- Channels and workers change, but no stream does. -/
theorem Ports.edit {channels : Nat → Channel} {workers : WorkerId → Worker} (ports : Ports s)
    (lastPort : ∀ w, (workers w).lastPort = (s.workers w).lastPort)
    (routes : ∀ w d route, (workers w).peerDeviceWorkerMap d = some route →
      From route.grant ((s.workers w).lastPort route.worker))
    (owner : ∀ chan side, (channels chan).owner side = (s.channels chan).owner side)
    (closed : ∀ chan side, (s.channels chan).port side = .closed → (channels chan).port side = .closed)
    (kept : ∀ w other e, (s.workers w).peerChannels other = some e →
      (workers w).peerChannels other = some e ∨ (channels e.chan).port e.side = .closed)
    (inUse : ∀ w other e, (workers w).peerChannels other = some e → (s.workers w).peerChannels other = some e)
    (untaken : ∀ w d target chan, .grant d target true chan ∈ s.inbox w →
      (s.workers w).ended = true ∨ (s.channels chan).near = .transit →
        (workers w).ended = true ∨ (channels chan).near = .transit)
    (dead : ∀ chan side, (workers ((s.channels chan).owner side)).ended = true →
      (s.workers ((s.channels chan).owner side)).ended = true ∨ (channels chan).port side = .closed) :
    Ports { s with channels := channels, workers := workers } where
  stream := by
    intro w about
    rw [lastPort w]
    exact ports.stream w about
  current := by
    intro entry member
    simp only [latestPort, lastPort]
    exact ports.current entry member
  placed := by
    intro w other chan last
    rw [lastPort w] at last
    obtain ⟨side, known, mine, theirs, place⟩ := ports.placed w other chan last
    refine ⟨side, known, (owner chan side).trans mine, (owner chan side.other).trans theirs, ?_⟩
    rcases place with place | shut
    · exact kept w other _ place
    · exact Or.inr (closed chan side shut)
  inUse := by
    intro w other e place
    rw [lastPort w]
    exact ports.inUse w other e (inUse w other e place)
  routes := by
    intro w d route known
    rw [lastPort w]
    exact routes w d route known
  tickets := by
    intro id known
    simp only [latestPort, lastPort]
    exact ports.tickets id known
  untaken := by
    intro w d target chan member
    exact untaken w d target chan member (ports.untaken w d target chan member)
  dead := by
    intro e known ended
    have ended : (workers ((channels e.chan).owner e.side)).ended = true := ended
    rw [owner] at ended
    rcases dead e.chan e.side ended with before | shut
    · exact closed e.chan e.side (ports.dead e known before)
    · exact shut

end Stream

/-! What a worker does. -/
section Workers

variable {s t : State} {w other : WorkerId} {message : ToWorker} {rest : List ToWorker}

theorem taken_lastPort (about : WorkerId) :
    ((s.taken w message rest).workers w).lastPort about = nextPort about ((s.workers w).lastPort about) message := by
  simp [State.taken]

theorem taken_latestPort (queued : s.inbox w = message :: rest) (v about : WorkerId) :
    latestPort (s.taken w message rest) v about = latestPort s v about :=
  taken_latest (·.lastPort about) queued (taken_lastPort about) v

/-- The worker takes a message without a port. -/
theorem Ports.taken (ports : Ports s) (queued : s.inbox w = message :: rest)
    (noPort : ∀ about, portOf about message = none) :
    Ports (s.taken w message rest) := by
  have keeps := fun {γ : Type} (field : Worker → γ) => taken_keeps s w field message rest
  have peerChannels := keeps (·.peerChannels) fun _ _ _ => rfl
  have ended := keeps (·.ended) fun _ _ _ => rfl
  have routes := keeps (·.peerDeviceWorkerMap) fun _ _ _ => rfl
  have lastPort : ∀ v, ((s.taken w message rest).workers v).lastPort = (s.workers v).lastPort := by
    intro v
    by_cases same : v = w
    · subst same
      funext about
      rw [taken_lastPort, nextPort, noPort]
      rfl
    · rw [(taken_other same).1]
  constructor
  · intro v about
    exact taken_sound (·.lastPort about) queued (taken_lastPort about) (fun v => ports.stream v about) v
  · intro entry member
    rw [taken_latestPort queued, taken_latestPort queued]
    exact ports.current entry member
  · intro v about chan
    rw [lastPort v, peerChannels v]
    exact ports.placed v about chan
  · intro v about e
    rw [lastPort v, peerChannels v]
    exact ports.inUse v about e
  · intro v d route
    rw [lastPort v, routes v]
    exact ports.routes v d route
  · intro id known
    rw [taken_latestPort queued]
    exact ports.tickets id known
  · intro v d target chan member
    rw [ended v]
    exact ports.untaken v d target chan (taken_member queued member)
  · intro e known
    rw [ended]
    exact ports.dead e known

theorem Ports.calls {workers : WorkerId → Worker} {outbox : WorkerId → List ToMain} {flights : List Flight}
    (ports : Ports s) (only : WaitsOnly s.workers workers) :
    Ports { s with workers := workers, outbox := outbox, flights := flights } := by
  have edited : Ports { s with workers := workers } := by
    apply ports.edit
    · exact fun w => by rw [only w]
    · intro w d route known
      rw [only w] at known
      exact ports.routes w d route known
    · exact fun _ _ => rfl
    · exact fun _ _ shut => shut
    · intro w other e place
      rw [only w]
      exact Or.inl place
    · intro w other e place
      rw [only w] at place
      exact place
    · intro w d target chan _ before
      rw [only w]
      exact before
    · intro chan side ended
      rw [only] at ended
      exact Or.inl ended
  exact { edited with }

theorem call_ports (ports : Ports s) (d : DeviceId) (appKey : AppKey) :
    Ports (invokeActionViaPeerChannel s w d appKey) := by
  rcases call_spec s w d appKey with ⟨_, _, _, _, _, same⟩ | ⟨workers, outbox, only, _, _, _, same⟩
  · rw [same]
    exact ports.calls (waits_only_refl _)
  · rw [same]
    exact ports.calls only

theorem flush_ports (ports : Ports s) (d : DeviceId) (target : Option Route) :
    Ports (flushPendingPeerInvokes s w d target) := by
  obtain ⟨workers, flights, only, same, _⟩ := flush_spec s w d target
  rw [same]
  exact ports.calls only

theorem withRoute_ports {d : DeviceId} {route : Route} (ports : Ports s)
    (above : From route.grant ((s.workers w).lastPort route.worker)) :
    Ports (s.withRoute w d route) := by
  have keeps := fun {γ : Type} (field : Worker → γ) => withRoute_keeps s w d route field
  apply ports.edit
  · exact keeps (·.lastPort) fun _ _ => rfl
  · intro v device found known
    have known := (withRoute_route s w d route v device).symm.trans known
    by_cases mine : v = w ∧ device = d
    · rw [if_pos mine] at known
      cases known
      rw [mine.1]
      exact above
    · rw [if_neg mine] at known
      exact ports.routes v device found known
  · exact fun _ _ => rfl
  · exact fun _ _ shut => shut
  · intro v about e place
    exact Or.inl ((congrFun (keeps (·.peerChannels) (fun _ _ => rfl) v) about).trans place)
  · intro v about e place
    exact (congrFun (keeps (·.peerChannels) (fun _ _ => rfl) v) about).symm.trans place
  · intro v device target chan _ before
    rcases before with ended | transit
    · exact Or.inl ((keeps (·.ended) (fun _ _ => rfl) v).trans ended)
    · exact Or.inr transit
  · intro chan side ended
    exact Or.inl ((keeps (·.ended) (fun _ _ => rfl) _).symm.trans ended)

theorem invalidate_ports {e : End} (ports : Ports s) (taken : s.port e ≠ .transit) : Ports (invalidate s e) := by
  rcases invalidate_spec s e with ⟨_, same⟩ | ⟨workers, same, unlinks⟩
  · rw [same]
    exact ports
  have port := withPort_port s e.chan e.side .closed
  rw [same]
  apply ports.edit
  · exact fun v => (unlinks v).lastPort
  · intro v d route known
    rw [(unlinks v).peerDeviceWorkerMap] at known
    exact ports.routes v d route known
  · intro chan side
    exact withPort_keeps s e.chan e.side .closed (·.owner side)
      (fun _ _ => by cases side <;> rfl) (fun _ _ => by cases side <;> rfl) chan
  · intro chan side shut
    rw [port]
    split
    · rfl
    · exact shut
  · intro v about found place
    rcases (unlinks v).peerChannels about with kept | ⟨_, was⟩
    · exact Or.inl (kept.trans place)
    · rw [was] at place
      cases place
      exact Or.inr (by rw [port, if_pos ⟨rfl, rfl⟩])
  · intro v about found place
    rcases (unlinks v).peerChannels about with kept | ⟨gone, _⟩
    · exact kept.symm.trans place
    · rw [gone] at place
      cases place
  · intro v d target chan _ before
    rcases before with ended | transit
    · left
      rw [(unlinks v).ended]
      exact ended
    · right
      refine (port chan .caller).trans ?_
      split
      next changed =>
        obtain ⟨rfl, side⟩ := changed
        exact absurd (by rw [State.port, ← side]; exact transit) taken
      next => exact transit
  · intro chan side ended
    rw [(unlinks _).ended] at ended
    exact Or.inl ended

theorem serve_ports {chan : Nat} {d : DeviceId} (ports : Ports s) :
    Ports (s.withChannel chan fun channel => { channel with allowed := d :: channel.allowed }) := by
  have keeps := fun {γ : Type} (field : Channel → γ) => withChannel_keeps s field chan
    fun channel => { channel with allowed := d :: channel.allowed }
  apply ports.edit
  · exact fun _ => rfl
  · exact ports.routes
  · intro other side
    exact keeps (·.owner side) (by cases side <;> rfl) other
  · intro other side shut
    exact (keeps (·.port side) (by cases side <;> rfl) other).trans shut
  · exact fun _ _ _ place => Or.inl place
  · exact fun _ _ _ place => place
  · intro v device target other _ before
    rcases before with ended | transit
    · exact Or.inl ended
    · exact Or.inr ((keeps (·.near) rfl other).trans transit)
  · exact fun _ _ ended => Or.inl ended

theorem exits_ports (sane : Sane s) (ports : Ports s) : Ports (exits s w) := by
  have keeps := fun {γ : Type} (field : Worker → γ) => withWorker_keeps s field w
    fun old => { old with ended := true }
  apply ports.edit
  · exact keeps (·.lastPort) rfl
  · intro v d route known
    have known := (congrFun (keeps (·.peerDeviceWorkerMap) rfl v) d).symm.trans known
    exact ports.routes v d route known
  · exact exits_owner s w
  · intro chan side shut
    refine (exits_port s w chan side).trans ?_
    split
    · rfl
    · exact shut
  · intro v about e place
    exact Or.inl ((congrFun (keeps (·.peerChannels) rfl v) about).trans place)
  · intro v about e place
    exact (congrFun (keeps (·.peerChannels) rfl v) about).symm.trans place
  · intro v d target chan sent before
    by_cases same : v = w
    · subst same
      exact Or.inl (by simp [State.withWorker])
    · rcases before with ended | transit
      · exact Or.inl (by simpa [State.withWorker, put_other _ _ same] using ended)
      · right
        -- the caller of the channel is the worker that the grant is for
        have routed : Routed s v target chan d := sane.facts.mail v _ sent
        refine (exits_port s w chan .caller).trans ?_
        rw [if_neg]
        · exact transit
        · intro mine
          exact same (routed.1.2.1.symm.trans mine)
  · intro chan side ended
    by_cases same : (s.channels chan).owner side = w
    · right
      refine (exits_port s w chan side).trans ?_
      rw [if_pos same]
    · left
      simpa [State.withWorker, put_other _ _ same] using ended

/-- The worker takes a message with a port and puts its end in the place. -/
structure Adopts (s t : State) (w other : WorkerId) (e : End) (message : ToWorker) (rest : List ToWorker) :
    Prop where
  nextChan : t.nextChan = s.nextChan
  registry : t.channelRegistry = s.channelRegistry
  nextId : t.nextId = s.nextId
  tickets : t.tickets = s.tickets
  inbox : t.inbox = (s.taken w message rest).inbox
  lastPort : ∀ v, (t.workers v).lastPort = ((s.taken w message rest).workers v).lastPort
  ended : ∀ v, (t.workers v).ended = (s.workers v).ended
  peerChannels : ∀ v about, (t.workers v).peerChannels about =
    if v = w ∧ about = other then some e else (s.workers v).peerChannels about
  routes : ∀ v d route, (t.workers v).peerDeviceWorkerMap d = some route →
    (s.workers v).peerDeviceWorkerMap d = some route ∨ (v = w ∧ route = ⟨other, e.chan⟩)
  owner : ∀ chan side, (t.channels chan).owner side = (s.channels chan).owner side
  port : ∀ chan side, (t.channels chan).port side =
    if chan = e.chan ∧ side = e.side then .held else (s.channels chan).port side

theorem adopts_lastPort {e : End} (adopts : Adopts s t w other e message rest)
    (carries : ∀ about, portOf about message = if about = other then some e.chan else none) (v about : WorkerId) :
    (t.workers v).lastPort about =
      if v = w ∧ about = other then some e.chan else (s.workers v).lastPort about := by
  rw [adopts.lastPort]
  by_cases mine : v = w
  · subst mine
    rw [taken_lastPort, nextPort, carries]
    by_cases named : about = other
    · simp [named]
    · simp [named]
  · simp [(taken_other mine).1, mine]

theorem Ports.adopted {e : End} (ports : Ports s) (adopts : Adopts s t w other e message rest)
    (queued : s.inbox w = message :: rest) (alive : (s.workers w).ended = false)
    (carries : ∀ about, portOf about message = if about = other then some e.chan else none)
    (rises : ∀ earlier, (s.workers w).lastPort other = some earlier → earlier < e.chan)
    (known : e.chan < s.nextChan) (mine : s.owner e = w) (theirs : s.peer e = other) (transit : s.port e = .transit)
    (addressed : e.side = .caller → ∀ v d target, .grant d target true e.chan ∈ s.inbox v → v = w ∧ target = other) :
    Ports t := by
  have lastPort := adopts_lastPort adopts carries
  have latestKept : ∀ v about, latestPort t v about = latestPort s v about := by
    intro v about
    rw [latestPort, adopts.lastPort, adopts.inbox]
    exact taken_latestPort queued v about
  constructor
  · intro v about
    rw [adopts.lastPort, adopts.inbox]
    exact taken_sound (·.lastPort about) queued (taken_lastPort about) (fun v => ports.stream v about) v
  · intro entry member
    rw [latestKept, latestKept]
    rw [adopts.registry] at member
    exact ports.current entry member
  · intro v about chan last
    rw [lastPort] at last
    rw [adopts.peerChannels, adopts.nextChan]
    simp only [State.owner, State.peer, State.port, adopts.owner, adopts.port]
    by_cases here : v = w ∧ about = other
    · rw [if_pos here] at last ⊢
      cases last
      exact ⟨e.side, known, mine.trans here.1.symm, theirs.trans here.2.symm, Or.inl rfl⟩
    · rw [if_neg here] at last ⊢
      obtain ⟨side, known, mine, theirs, place⟩ := ports.placed v about chan last
      refine ⟨side, known, mine, theirs, ?_⟩
      rcases place with place | shut
      · exact Or.inl place
      · right
        rw [if_neg]
        · exact shut
        · rintro ⟨rfl, rfl⟩
          rw [State.port] at shut transit
          rw [transit] at shut
          cases shut
  · intro v about found place
    rw [adopts.peerChannels] at place
    rw [lastPort]
    split at place
    next here =>
      cases place
      rw [if_pos here]
    next apart =>
      rw [if_neg apart]
      exact ports.inUse v about found place
  · intro v d route found
    rw [lastPort]
    rcases adopts.routes v d route found with before | ⟨rfl, rfl⟩
    · obtain ⟨later, last, below⟩ := ports.routes v d route before
      split
      next here =>
        obtain ⟨rfl, sameWorker⟩ := here
        rw [sameWorker] at last
        have order := rises later last
        exact ⟨e.chan, rfl, by omega⟩
      next => exact ⟨later, last, below⟩
    · exact ⟨e.chan, by simp, Nat.le_refl _⟩
  · intro id isKnown
    rw [adopts.nextId] at isKnown
    rw [adopts.tickets, latestKept]
    exact ports.tickets id isKnown
  · intro v d target chan member
    rw [adopts.inbox] at member
    rw [adopts.ended]
    rcases ports.untaken v d target chan (taken_member queued member) with ended | near
    · exact Or.inl ended
    right
    have near' : (t.channels chan).near = if chan = e.chan ∧ .caller = e.side then .held else (s.channels chan).near :=
      adopts.port chan .caller
    rw [near', if_neg]
    · exact near
    · -- a further grant of this channel would be after the one that is taken
      rintro ⟨rfl, side⟩
      obtain ⟨rfl, rfl⟩ := addressed side.symm v d target (taken_member queued member)
      rw [taken_inbox] at member
      have later := ports.stream v target
      rw [queued] at later
      have start : From e.chan (nextPort target ((s.workers v).lastPort target) message) :=
        ⟨e.chan, by simp [nextPort, carries], Nat.le_refl _⟩
      obtain ⟨last, ⟨later, lastIs, above⟩, fits⟩ := sound_member (From e.chan) later.2
        (fun _ _ _ fits above => ports_rise fits above) start member
      have below := fits rfl later lastIs
      omega
  · intro found isKnown ended
    rw [adopts.nextChan] at isKnown
    rw [State.owner, adopts.owner, adopts.ended] at ended
    rw [State.port, adopts.port, if_neg]
    · exact ports.dead found isKnown ended
    · rintro ⟨sameChan, sameSide⟩
      have same : found = e := by
        cases found
        cases e
        simp_all
      subst same
      rw [State.owner] at mine
      rw [mine, alive] at ended
      cases ended

/-- The caller's end of a new channel. -/
theorem grant_adopts {d : DeviceId} {target : WorkerId} {chan : Nat} (message : ToWorker) (rest : List ToWorker) :
    Adopts s ((((s.taken w message rest).withRoute w d ⟨target, chan⟩).withPort chan .caller .held).adopt w target
      ⟨chan, .caller⟩) w target ⟨chan, .caller⟩ message rest := by
  have adopted := fun {γ : Type} (field : Worker → γ) =>
    adopt_keeps (((s.taken w message rest).withRoute w d ⟨target, chan⟩).withPort chan .caller .held) w target
      ⟨chan, .caller⟩ field
  have routed := fun {γ : Type} (field : Worker → γ) =>
    withRoute_keeps (s.taken w message rest) w d ⟨target, chan⟩ field
  have taken := fun {γ : Type} (field : Worker → γ) => taken_keeps s w field message rest
  constructor
  · rfl
  · rfl
  · rfl
  · rfl
  · rfl
  · intro v
    exact (adopted (·.lastPort) (fun _ _ => rfl) v).trans (routed (·.lastPort) (fun _ _ => rfl) v)
  · intro v
    refine (adopted (·.ended) (fun _ _ => rfl) v).trans ?_
    exact (routed (·.ended) (fun _ _ => rfl) v).trans (taken (·.ended) (fun _ _ _ => rfl) v)
  · intro v about
    rw [adopt_peerChannels]
    split
    · rfl
    · refine (congrFun (routed (·.peerChannels) (fun _ _ => rfl) v) about).trans ?_
      exact congrFun (taken (·.peerChannels) (fun _ _ _ => rfl) v) about
  · intro v device route known
    rw [adopted (·.peerDeviceWorkerMap) fun _ _ => rfl] at known
    have known := (withRoute_route (s.taken w message rest) w d ⟨target, chan⟩ v device).symm.trans known
    split at known
    next mine =>
      cases known
      exact Or.inr ⟨mine.1, rfl⟩
    next =>
      rw [taken (·.peerDeviceWorkerMap) fun _ _ _ => rfl] at known
      exact Or.inl known
  · intro other side
    exact withPort_keeps ((s.taken w message rest).withRoute w d ⟨target, chan⟩) chan .caller .held (·.owner side)
      (fun _ _ => by cases side <;> rfl) (fun _ _ => by cases side <;> rfl) other
  · intro other side
    exact withPort_port ((s.taken w message rest).withRoute w d ⟨target, chan⟩) chan .caller .held other side

/-- The callee's end. -/
theorem open_adopts {caller : WorkerId} {appKey : AppKey} {d : DeviceId} {chan : Nat} (rest : List ToWorker) :
    Adopts s (openedState s w caller appKey d chan rest) w caller ⟨chan, .callee⟩ (.open caller appKey d chan)
      rest := by
  constructor
  · rfl
  · rfl
  · rfl
  · rfl
  · rfl
  · exact opened_keeps (·.lastPort) fun _ _ => rfl
  · intro v
    refine (opened_keeps (·.ended) (fun _ _ => rfl) v).trans ?_
    exact taken_keeps s w (·.ended) (.open caller appKey d chan) rest (fun _ _ _ => rfl) v
  · exact opened_peerChannels
  · intro v device route known
    rw [opened_keeps (·.peerDeviceWorkerMap) fun _ _ => rfl,
      taken_keeps s w (·.peerDeviceWorkerMap) (.open caller appKey d chan) rest fun _ _ _ => rfl] at known
    exact Or.inl known
  · exact opened_owner
  · intro other side
    by_cases same : other = chan
    · subst same
      rw [opened_chan]
      cases side <;> simp [Channel.port]
    · rw [opened_channel other same]
      simp [same]

/-- A worker that is given a port has no open end for the other worker. -/
def givenFree (s : State) (w : WorkerId) : Bool :=
  match s.inbox w with
  | .grant _ target true _ :: _ => noLive s w target
  | _ => true

theorem handleNext_ports (sane : Sane s) (ports : Ports s) (free : givenFree s w = true) :
    Ports (handleNext s w) := by
  cases queued : s.inbox w with
  | nil => simpa only [handleNext, queued] using ports
  | cons message rest =>
      by_cases dead : (s.workers w).ended = true
      · simpa only [handleNext, queued, if_pos dead] using ports
      have alive : (s.workers w).ended = false := by simpa using dead
      have addressed := sane.facts.mail w message (by simp [queued])
      have fits := fun about => ports.stream w about
      simp only [handleNext, queued, if_neg dead]
      simp only [queued, Sound] at fits
      cases message with
      | grant d target port chan =>
          cases port with
          | false =>
              have taken := ports.taken queued fun _ => rfl
              have above : From chan (((s.taken w (.grant d target false chan) rest).workers w).lastPort target) := by
                rw [taken_lastPort]
                exact (fits target).1 rfl
              have routed : Ports ((s.taken w (.grant d target false chan) rest).withRoute w d ⟨target, chan⟩) :=
                withRoute_ports taken above
              exact flush_ports routed d (some ⟨target, chan⟩)
          | true =>
              simp only [givenFree, queued] at free
              simp only [onMessage, onPeerChannelGrant, taken_noLive, free, Bool.and_self, if_true]
              apply flush_ports
              apply ports.adopted (grant_adopts _ rest) queued alive
              · intro about
                by_cases same : target = about
                · simp [portOf, same]
                · simp [portOf, same, Ne.symm same]
              · exact (fits target).1 rfl
              · exact addressed.1.1
              · exact addressed.1.2.1
              · exact addressed.1.2.2
              · have near : (s.channels chan).near = .transit := by
                  simpa [alive] using ports.untaken w d target chan (by simp [queued])
                exact near
              · intro _ v device about sent
                have others : Routed s v about chan device := sane.facts.mail v _ sent
                exact ⟨others.1.2.1.symm.trans addressed.1.2.1, others.1.2.2.symm.trans addressed.1.2.2⟩
      | deny d errCode =>
          have taken := ports.taken queued fun _ => rfl
          exact flush_ports taken d none
      | «open» caller appKey d chan =>
          have far : (s.channels chan).far = .transit := by
            simpa [alive] using sane.opens.openings w caller appKey d chan (by simp [queued])
          apply ports.adopted (open_adopts rest) queued alive
          · intro about
            by_cases same : caller = about
            · simp [portOf, same]
            · simp [portOf, same, Ne.symm same]
          · exact (fits caller).1 rfl
          · exact addressed.1.1
          · exact addressed.1.2.2
          · exact addressed.1.2.1
          · exact far
          · intro impossible
            cases impossible
      | allow caller d chan id =>
          have taken := ports.taken queued fun _ => rfl
          simp only [onMessage, onPeerChannelAllow]
          split
          · exact { serve_ports taken with }
          · exact { taken with }
      | invalidate about chan =>
          have taken := ports.taken queued fun _ => rfl
          have saneTaken := taken_sane sane queued fun _ => rfl
          simp only [onMessage, onPeerInvalidate]
          split
          · exact taken
          next e inUse => exact invalidate_ports taken (saneTaken.opens.ends w about e inUse).2.2.2

end Workers

/-! What the main thread does. -/
section Broker

variable {s : State} {w caller callee : WorkerId}

/-- Entries go or get further grants. -/
theorem Ports.quiet {deviceMap : DeviceId → Option WorkerId} {registry : List Entry} {asks : List Ask}
    {checks : Nat} {waiting : List Nat} {gone : WorkerId → Bool} {outbox : WorkerId → List ToMain}
    {flights : List Flight} {granted : List Success} (ports : Ports s)
    (entries : ∀ entry ∈ registry, ∃ old ∈ s.channelRegistry,
      old.caller = entry.caller ∧ old.callee = entry.callee ∧ old.chan = entry.chan) :
    Ports { s with
      deviceMap := deviceMap, channelRegistry := registry, asks := asks, recheckInFlight := checks,
      waiting := waiting, gone := gone, outbox := outbox, flights := flights, granted := granted } :=
  { ports with
    current := by
      intro entry member
      obtain ⟨old, known, callerIs, calleeIs, chanIs⟩ := entries entry member
      have current := ports.current old known
      rw [callerIs, calleeIs, chanIs] at current
      exact current }

theorem deny_ports (ports : Ports s) (d : DeviceId) (errCode : DenyCode) : Ports (s.deny caller d errCode) :=
  ports.sendOther (fun _ => rfl) (fun _ => trivial)

theorem denyAll_ports (ids : List Nat) (ports : Ports s) : Ports (denyAll ids s) := by
  induction ids generalizing s with
  | nil => exact ports
  | cons id rest ih => exact ih (deny_ports ports _ _)

theorem invalidated_ports {other : WorkerId} {chan : Nat} (ports : Ports s)
    (last : latestPort s w other = some chan) :
    Ports (s.send w (.invalidate other chan)) := by
  apply ports.sendOther
  · exact fun _ => rfl
  · rintro about rfl
    exact last

theorem tellOthers_ports (entries : List Entry) (ports : Ports s)
    (current : ∀ entry ∈ entries, latestPort s entry.caller entry.callee = some entry.chan ∧
      latestPort s entry.callee entry.caller = some entry.chan)
    (mine : ∀ entry ∈ entries, involves w entry = true) :
    Ports (tellOthers w entries s) := by
  induction entries generalizing s with
  | nil => exact ports
  | cons entry rest ih =>
      obtain ⟨asCaller, asCallee⟩ := current entry List.mem_cons_self
      apply ih
      · apply invalidated_ports ports
        by_cases isCaller : entry.caller = w
        · rw [if_pos isCaller, ← isCaller]
          exact asCallee
        · have isCallee : entry.callee = w := by simpa [involves, isCaller] using mine entry List.mem_cons_self
          rw [if_neg isCaller, ← isCallee]
          exact asCaller
      · intro other member
        rw [latestPort_unsent _ fun _ => rfl, latestPort_unsent _ fun _ => rfl]
        exact current other (List.mem_cons_of_mem _ member)
      · intro other member
        exact mine other (List.mem_cons_of_mem _ member)

theorem invalidateWorker_ports (ports : Ports s) : Ports (invalidateWorker s w) := by
  apply tellOthers_ports
  · apply ports.quiet
    intro entry member
    exact ⟨entry, (List.mem_filter.mp member).1, rfl, rfl, rfl⟩
  · intro entry member
    exact ports.current entry (List.mem_filter.mp member).1
  · intro entry member
    exact (List.mem_filter.mp member).2

theorem closeRevoked_ports {chan : Nat} (ports : Ports s) : Ports (closeRevoked s caller callee chan) := by
  simp only [closeRevoked]
  split
  · exact ports
  next entry found =>
    obtain ⟨known, callerIs, calleeIs⟩ := entryFor_some found
    split
    next chanIs =>
      obtain ⟨asCaller, asCallee⟩ := ports.current entry known
      rw [callerIs, calleeIs, chanIs] at asCaller asCallee
      apply invalidated_ports
      · apply invalidated_ports
        · apply ports.quiet
          intro other member
          exact ⟨other, (List.mem_filter.mp member).1, rfl, rfl, rfl⟩
        · exact asCaller
      · rw [latestPort_unsent _ fun _ => rfl]
        exact asCallee
    next => exact ports

section Opening

variable {d : DeviceId} {appKey : AppKey}

theorem made_ports (sane : Sane s) (ports : Ports s) : Ports (madeChannel s d appKey caller callee) :=
  { ports with
    placed := by
      intro w other chan last
      obtain ⟨side, known, mine, theirs, place⟩ := ports.placed w other chan last
      refine ⟨side, Nat.lt_succ_of_lt known, ?_⟩
      simp only [State.owner, State.peer, State.port, made_old known]
      exact ⟨mine, theirs, place⟩
    untaken := by
      intro w device target chan member
      have routed : Routed s w target chan device := sane.facts.mail w _ member
      rw [made_old routed.1.1]
      exact ports.untaken w device target chan member
    dead := by
      intro e known ended
      have known : e.chan < s.nextChan + 1 := known
      by_cases new : e.chan = s.nextChan
      · rw [State.owner, new, made_new] at ended
        rw [State.port, new, made_new]
        cases side : e.side with
        | caller =>
            rw [side] at ended
            have ended : (s.workers caller).ended = true := ended
            simp [Channel.port, ended]
        | callee =>
            rw [side] at ended
            have ended : (s.workers callee).ended = true := ended
            simp [Channel.port, ended]
      · have old : e.chan < s.nextChan := by omega
        rw [State.owner, made_old old] at ended
        rw [State.port, made_old old]
        exact ports.dead e old ended }

/-- Both workers get the port of the new channel last, as neither direction has another. -/
theorem openChannel_ports (sane : Sane s) (ports : Ports s) (apart : caller ≠ callee)
    (free : entryFor s caller callee = none) (reverse : entryFor s callee caller = none) :
    Ports (openChannel s d appKey caller callee) := by
  have made : Ports (madeChannel s d appKey caller callee) := made_ports sane ports
  have told : Ports ((madeChannel s d appKey caller callee).send callee (.open caller appKey d s.nextChan)) := by
    apply made.send
    · rintro about rfl earlier last
      exact latestPort_known sane ports last
    · intro entry member
      have known : entry ∈ s.channelRegistry := member
      constructor
      · intro isCallee
        have differs : caller ≠ entry.callee := fun same => entryFor_none reverse known isCallee same.symm
        simp [portOf, differs]
      · intro isCallee
        have differs : caller ≠ entry.caller := fun same => entryFor_none free known same.symm isCallee
        simp [portOf, differs]
    · intro device target chan impossible
      cases impossible
  have unsent : ∀ about, latestPort ((madeChannel s d appKey caller callee).send callee
      (.open caller appKey d s.nextChan)) caller about = latestPort s caller about := by
    intro about
    exact latestPort_unsent _ fun same => absurd same apart
  have both : Ports (((madeChannel s d appKey caller callee).send callee (.open caller appKey d s.nextChan)).send
      caller (.grant d callee true s.nextChan)) := by
    apply told.send
    · rintro about rfl earlier last
      rw [unsent] at last
      exact latestPort_known sane ports last
    · intro entry member
      have known : entry ∈ s.channelRegistry := member
      constructor
      · intro isCaller
        have differs : callee ≠ entry.callee := fun same => entryFor_none free known isCaller same.symm
        simp [portOf, differs]
      · intro isCaller
        have differs : callee ≠ entry.caller := fun same => entryFor_none reverse known same.symm isCaller
        simp [portOf, differs]
    · intro device target chan same
      cases same
      by_cases dead : (s.workers caller).ended = true
      · exact Or.inl dead
      · right
        change ((madeChannel s d appKey caller callee).channels s.nextChan).near = .transit
        rw [made_new]
        simp [dead]
  have lastOfCaller : latestPort (openChannel s d appKey caller callee) caller callee = some s.nextChan := by
    simp [latestPort, openChannel, State.send, nextPort, portOf]
  have lastOfCallee : latestPort (openChannel s d appKey caller callee) callee caller = some s.nextChan := by
    have toCaller : callee ≠ caller := Ne.symm apart
    simp [latestPort, openChannel, State.send, put_other _ _ toCaller, nextPort, portOf]
  exact
    { both with
      current := by
        intro entry member
        rcases List.mem_append.mp member with old | new
        · exact both.current entry old
        · cases List.mem_singleton.mp new
          exact ⟨lastOfCaller, lastOfCallee⟩ }

theorem allowDevice_ports {entry : Entry} (ports : Ports s) (known : entry ∈ s.channelRegistry) :
    Ports (allowDevice s d appKey entry) := by
  have noted : Ports { s with
      channelRegistry := s.channelRegistry.map fun other =>
        if other = entry then { other with grants := other.grants.insert (appKey, d) } else other
      granted := s.granted ++ [⟨entry.chan, appKey, d, entry.caller, entry.callee⟩] } := by
    apply ports.quiet
    intro other member
    obtain ⟨old, wasKnown, same⟩ := List.mem_map.mp member
    refine ⟨old, wasKnown, ?_⟩
    rw [← same]
    split <;> exact ⟨rfl, rfl, rfl⟩
  simp only [allowDevice]
  split
  · exact deny_ports noted d _
  next =>
    have sent := @Ports.sendOther _ entry.callee (.allow entry.caller d entry.chan s.nextId) noted
      (fun _ => rfl) (fun _ => trivial)
    exact
      { sent with
        tickets := by
          intro id isKnown
          have isKnown : id < s.nextId + 1 := isKnown
          by_cases new : id = s.nextId
          · subst new
            simp only [put_same]
            refine ⟨entry.chan, ?_, Nat.le_refl _⟩
            exact (latestPort_unsent _ fun _ => rfl).trans (ports.current entry known).1
          · have old : id < s.nextId := by omega
            simp only [put_other _ _ new]
            exact sent.tickets id old }

end Opening

theorem onAllowed_ports {id : Nat} (ports : Ports s) (known : id < s.nextId) : Ports (onAllowed s id) := by
  simp only [onAllowed]
  split
  next =>
    have rest : Ports { s with waiting := s.waiting.filter fun other => other != id } :=
      ports.quiet fun entry member => ⟨entry, member, rfl, rfl, rfl⟩
    apply rest.sendOther
    · exact fun _ => rfl
    · rintro about rfl
      exact ports.tickets id known
  next => exact ports

/-- No channel is opened for a pair while the other direction has one. -/
def oneWay (s : State) : Ask → Bool
  | .request _ _ caller callee => entryFor s caller callee ≠ none || entryFor s callee caller = none
  | _ => true

theorem answered_ports {ask : Ask} (sane : Sane s) (ports : Ports s) (ok : Bool)
    (distinct : ∀ d appKey caller callee, ask = .request d appKey caller callee → caller ≠ callee)
    (single : ok = true → oneWay s ask = true) :
    Ports (answered s ask ok) := by
  cases ask with
  | missing d appKey caller => exact deny_ports ports d _
  | request d appKey caller callee =>
      cases ok with
      | false => exact deny_ports ports d _
      | true =>
          simp only [answered, if_true, grant]
          split
          next entry found => exact allowDevice_ports ports (entryFor_some found).1
          next free =>
            have reverse : entryFor s callee caller = none := by simpa [oneWay, free] using single rfl
            exact openChannel_ports sane ports (distinct d appKey caller callee rfl) free reverse
  | recheck caller callee chan appKey d =>
      have counted : Ports { s with recheckInFlight := s.recheckInFlight - 1 } :=
        ports.quiet fun entry member => ⟨entry, member, rfl, rfl, rfl⟩
      cases ok with
      | true => exact counted
      | false => exact closeRevoked_ports counted

theorem onWorkerMessage_ports {message : ToMain} (ports : Ports s) (limited known : Bool)
    (reply : ∀ id, message = .allowed id → id < s.nextId) :
    Ports (onWorkerMessage s w limited known message) := by
  cases message with
  | request d appKey =>
      have asking (asks : List Ask) : Ports { s with asks := asks } :=
        ports.quiet fun entry member => ⟨entry, member, rfl, rfl, rfl⟩
      simp only [onWorkerMessage, handleRequest]
      split
      · exact deny_ports ports d _
      · split
        · split
          · exact asking _
          · exact deny_ports ports d _
        · split
          · exact deny_ports ports d _
          · exact asking _
  | selfInvalidate => exact invalidateWorker_ports ports
  | allowed id => exact onAllowed_ports ports (reply id rfl)

end Broker

/-! Runs. -/
section Runs

/-- The broker opens no channel for a pair while the other direction has one, and no worker
is given a port for a worker that it has an open end for. -/
def keepsDirection (s : State) : Action → Bool
  | .answer place true =>
      match s.asks[place]? with
      | none => true
      | some ask => oneWay s ask
  | .next w => givenFree s w
  | _ => true

theorem step_ports {s : State} (sane : Sane s) (ports : Ports s) (action : Action)
    (condition : keepsDirection s action = true) :
    Ports (step s action) := by
  have kept : ∀ entry ∈ s.channelRegistry, ∃ old ∈ s.channelRegistry,
      old.caller = entry.caller ∧ old.callee = entry.callee ∧ old.chan = entry.chan :=
    fun entry member => ⟨entry, member, rfl, rfl, rfl⟩
  cases action with
  | online d worker => exact ports.quiet kept
  | call worker d appKey =>
      simp only [step]
      split
      · exact ports
      · exact call_ports ports d appKey
  | receive worker limited known =>
      simp only [step]
      split
      · exact ports
      next message rest queued =>
        apply onWorkerMessage_ports
        · exact ports.quiet kept
        · rintro id rfl
          exact (sane.facts.replies worker id (by simp [queued])).1
  | answer place ok =>
      simp only [step]
      split
      · exact ports
      next ask found =>
        apply answered_ports
        · apply quiet_sane sane kept _ (fun _ _ member => member) (fun _ member _ => member)
          intro d appKey caller callee member
          exact sane.facts.asks d appKey caller callee (List.mem_of_mem_eraseIdx member)
        · exact ports.quiet kept
        · rintro d appKey caller callee rfl
          exact sane.facts.asks d appKey caller callee (List.mem_of_getElem? found)
        · rintro rfl
          simp only [keepsDirection, found] at condition
          cases ask with
          | request d appKey caller callee => exact condition
          | _ => rfl
  | recheck =>
      simp only [step, recheckGrants]
      split
      · exact ports
      · exact ports.quiet kept
  | purge worker =>
      apply invalidateWorker_ports
      exact ports.quiet kept
  | reload worker =>
      simp only [step]
      split
      · exact ports
      · exact { ports with }
  | next worker => exact handleNext_ports sane ports condition
  | portClose e =>
      simp only [step]
      split
      next ready =>
        apply invalidate_ports ports
        simp only [Bool.and_eq_true, decide_eq_true_eq] at ready
        simp [ready.1]
      next => exact ports
  | deliver place => exact ports.quiet kept
  | post e d =>
      simp only [step]
      split
      · exact ports.quiet kept
      · exact ports
  | exit worker => exact exits_ports sane ports
  | ended worker =>
      apply denyAll_ports
      exact ports.quiet kept

end Runs

end Countinghouse.PeerPorts
