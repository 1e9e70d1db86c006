import Countinghouse.PeerBroker
import Countinghouse.Streams

/-!
What is known of peer channels: each message, route and invoke is about a channel of the two
workers it names, and the callee of a channel that was granted for a device serves that device
by the time an invoke can reach it. The order of the messages to one worker carries the second
part: an allow finds the channel whose open came last.
-/

namespace Countinghouse.PeerGrants

open PeerBroker Streams

/-! Facts about channels that later steps keep. -/
section Growth

variable {s t u : State} {w other : WorkerId} {d : DeviceId} {chan : Nat}

def Parties (s : State) (chan : Nat) (caller callee : WorkerId) : Prop :=
  chan < s.nextChan ∧ (s.channels chan).caller = caller ∧ (s.channels chan).callee = callee

def Granted (s : State) (chan : Nat) (d : DeviceId) : Prop :=
  ∃ success ∈ s.granted, success.chan = chan ∧ success.deviceID = d

/-- The callee serves the device once it has the port, unless it is gone. -/
def Ready (s : State) (chan : Nat) (d : DeviceId) : Prop :=
  d ∈ (s.channels chan).allowed ∨ (s.channels chan).far = .closed ∨
    ((s.channels chan).far = .transit ∧ (s.channels chan).first = d)

/-- A channel from `w` to `target` on which `w` may call `d`. -/
def Routed (s : State) (w target : WorkerId) (chan : Nat) (d : DeviceId) : Prop :=
  Parties s chan w target ∧ Ready s chan d

def Addressed (s : State) (w : WorkerId) : ToWorker → Prop
  | .grant d target _ chan => Routed s w target chan d
  | .deny _ _ => True
  | .open caller _ d chan => Parties s chan caller w ∧ (s.channels chan).first = d
  | .allow caller d chan id =>
      Parties s chan caller w ∧ Granted s chan d ∧ id < s.nextId ∧ s.tickets id = ⟨caller, w, d, chan⟩
  | .invalidate other chan => Parties s chan w other ∨ Parties s chan other w

structure Grows (s t : State) : Prop where
  chans : s.nextChan ≤ t.nextChan
  caller : ∀ chan < s.nextChan, (t.channels chan).caller = (s.channels chan).caller
  callee : ∀ chan < s.nextChan, (t.channels chan).callee = (s.channels chan).callee
  first : ∀ chan < s.nextChan, (t.channels chan).first = (s.channels chan).first
  ready : ∀ chan < s.nextChan, ∀ d, Ready s chan d → Ready t chan d
  granted : ∀ success ∈ s.granted, success ∈ t.granted
  ids : s.nextId ≤ t.nextId
  tickets : ∀ id < s.nextId, t.tickets id = s.tickets id

theorem Parties.grow {caller callee : WorkerId} (grows : Grows s t) (parties : Parties s chan caller callee) :
    Parties t chan caller callee := by
  obtain ⟨known, callerIs, calleeIs⟩ := parties
  constructor
  · exact Nat.lt_of_lt_of_le known grows.chans
  · rw [grows.caller chan known, grows.callee chan known]
    exact ⟨callerIs, calleeIs⟩

theorem Granted.grow (grows : Grows s t) (granted : Granted s chan d) : Granted t chan d := by
  obtain ⟨success, member, same⟩ := granted
  exact ⟨success, grows.granted _ member, same⟩

theorem Routed.grow {target : WorkerId} (grows : Grows s t) (routed : Routed s w target chan d) :
    Routed t w target chan d :=
  ⟨routed.1.grow grows, grows.ready chan routed.1.1 d routed.2⟩

theorem Addressed.grow {message : ToWorker} (grows : Grows s t) (addressed : Addressed s w message) :
    Addressed t w message := by
  cases message with
  | grant d target port chan => exact Routed.grow grows addressed
  | deny d errCode => trivial
  | «open» caller appKey d chan =>
      constructor
      · exact addressed.1.grow grows
      · rw [grows.first chan addressed.1.1]
        exact addressed.2
  | allow caller d chan id =>
      obtain ⟨parties, granted, known, ticket⟩ := addressed
      refine ⟨parties.grow grows, granted.grow grows, Nat.lt_of_lt_of_le known grows.ids, ?_⟩
      rw [grows.tickets id known]
      exact ticket
  | invalidate other chan =>
      rcases addressed with parties | parties
      · exact Or.inl (parties.grow grows)
      · exact Or.inr (parties.grow grows)

theorem Grows.refl (s : State) : Grows s s where
  chans := Nat.le_refl _
  caller := fun _ _ => rfl
  callee := fun _ _ => rfl
  first := fun _ _ => rfl
  ready := fun _ _ _ ready => ready
  granted := fun _ success => success
  ids := Nat.le_refl _
  tickets := fun _ _ => rfl

/-- An edit of the channels and workers that keeps who a channel is for. -/
theorem grows_of_edit {channels : Nat → Channel} {workers : WorkerId → Worker}
    (caller : ∀ chan, (channels chan).caller = (s.channels chan).caller)
    (callee : ∀ chan, (channels chan).callee = (s.channels chan).callee)
    (first : ∀ chan, (channels chan).first = (s.channels chan).first)
    (ready : ∀ chan < s.nextChan, ∀ d, Ready s chan d → Ready { s with channels := channels } chan d) :
    Grows s { s with channels := channels, workers := workers } where
  chans := Nat.le_refl _
  caller := fun chan _ => caller chan
  callee := fun chan _ => callee chan
  first := fun chan _ => first chan
  ready := ready
  granted := fun _ success => success
  ids := Nat.le_refl _
  tickets := fun _ _ => rfl

end Growth

/-! What the parts of a state say about channels. -/
section Facts

variable {s t : State} {w : WorkerId}

structure Facts (s : State) : Prop where
  distinct : ∀ chan < s.nextChan, (s.channels chan).caller ≠ (s.channels chan).callee
  first : ∀ chan < s.nextChan, Granted s chan (s.channels chan).first
  successes : ∀ success ∈ s.granted, Parties s success.chan success.caller success.callee
  entries : ∀ entry ∈ s.channelRegistry, Parties s entry.chan entry.caller entry.callee
  asks : ∀ d appKey caller callee, .request d appKey caller callee ∈ s.asks → caller ≠ callee
  mail : ∀ w, ∀ message ∈ s.inbox w, Addressed s w message
  tickets : ∀ id < s.nextId, Parties s (s.tickets id).chan (s.tickets id).caller (s.tickets id).callee
  replies : ∀ w id, .allowed id ∈ s.outbox w →
    id < s.nextId ∧ Ready s (s.tickets id).chan (s.tickets id).deviceID
  routes : ∀ w d route, (s.workers w).peerDeviceWorkerMap d = some route →
    Routed s w route.worker route.grant d
  flights : ∀ flight ∈ s.flights, ∀ issue, flight.issue = some issue →
    Routed s issue.caller issue.target issue.grant flight.deviceID

theorem facts_fresh : Facts State.fresh := by
  constructor <;> simp [State.fresh]

/-- A message that is right when it is sent stays so. -/
theorem Facts.send {message : ToWorker} (facts : Facts s) (addressed : Addressed s w message) :
    Facts (s.send w message) :=
  { facts with
    mail := by
      intro other sent member
      rcases (mem_send_inbox s).mp member with old | ⟨rfl, rfl⟩
      · exact facts.mail other sent old
      · exact addressed }

theorem Facts.sendMain {message : ToMain} (facts : Facts s)
    (reply : ∀ id, message = .allowed id →
      id < s.nextId ∧ Ready s (s.tickets id).chan (s.tickets id).deviceID) :
    Facts (s.sendMain w message) :=
  { facts with
    replies := by
      intro other id member
      by_cases same : other = w
      · subst same
        simp only [State.sendMain, put_same, List.mem_append, List.mem_singleton] at member
        rcases member with old | rfl
        · exact facts.replies other id old
        · exact reply id rfl
      · simp only [State.sendMain, put_other _ _ same] at member
        exact facts.replies other id member }

/-- Channels change, and workers in anything but their routes. -/
theorem Facts.edit {channels : Nat → Channel} {workers : WorkerId → Worker} (facts : Facts s)
    (grows : Grows s { s with channels := channels, workers := workers })
    (routes : ∀ w, (workers w).peerDeviceWorkerMap = (s.workers w).peerDeviceWorkerMap) :
    Facts { s with channels := channels, workers := workers } where
  distinct := by
    intro chan known
    rw [grows.caller chan known, grows.callee chan known]
    exact facts.distinct chan known
  first := by
    intro chan known
    rw [grows.first chan known]
    exact (facts.first chan known).grow grows
  successes := fun success member => (facts.successes success member).grow grows
  entries := fun entry member => (facts.entries entry member).grow grows
  asks := facts.asks
  mail := fun w message member => (facts.mail w message member).grow grows
  tickets := fun id known => (facts.tickets id known).grow grows
  replies := by
    intro w id member
    obtain ⟨known, ready⟩ := facts.replies w id member
    exact ⟨known, grows.ready _ (facts.tickets id known).1 _ ready⟩
  routes := by
    intro w d route found
    rw [routes w] at found
    exact (facts.routes w d route found).grow grows
  flights := fun flight member issue issued => (facts.flights flight member issue issued).grow grows

/-- The workers change in anything but their routes. -/
theorem Facts.workers {workers : WorkerId → Worker} (facts : Facts s)
    (routes : ∀ w, (workers w).peerDeviceWorkerMap = (s.workers w).peerDeviceWorkerMap) :
    Facts { s with workers := workers } :=
  { facts with
    routes := by
      intro w d route found
      rw [routes w] at found
      exact facts.routes w d route found }

end Facts

/-! A worker that takes a message remembers what it carried. -/
section Taking

variable {s : State} {w : WorkerId} {message : ToWorker} {rest : List ToWorker}

theorem taken_other {v : WorkerId} (other : v ≠ w) :
    (s.taken w message rest).workers v = s.workers v ∧ (s.taken w message rest).inbox v = s.inbox v := by
  simp [State.taken, put_other _ _ other]

theorem taken_inbox : (s.taken w message rest).inbox w = rest := by
  simp [State.taken]

theorem taken_sound (last : Worker → Option Nat) {next : Option Nat → ToWorker → Option Nat}
    {fits : Option Nat → ToWorker → Prop} (queued : s.inbox w = message :: rest)
    (learns : last ((s.taken w message rest).workers w) = next (last (s.workers w)) message)
    (sound : ∀ v, Sound next fits (last (s.workers v)) (s.inbox v)) (v : WorkerId) :
    Sound next fits (last ((s.taken w message rest).workers v)) ((s.taken w message rest).inbox v) := by
  by_cases same : v = w
  · subst same
    have before := sound v
    rw [queued] at before
    rw [learns, taken_inbox]
    exact before.2
  · rw [(taken_other same).1, (taken_other same).2]
    exact sound v

theorem taken_latest (last : Worker → Option Nat) {next : Option Nat → ToWorker → Option Nat}
    (queued : s.inbox w = message :: rest)
    (learns : last ((s.taken w message rest).workers w) = next (last (s.workers w)) message) (v : WorkerId) :
    latest next (last ((s.taken w message rest).workers v)) ((s.taken w message rest).inbox v) =
      latest next (last (s.workers v)) (s.inbox v) := by
  by_cases same : v = w
  · subst same
    rw [learns, taken_inbox, queued, latest_cons]
  · rw [(taken_other same).1, (taken_other same).2]

theorem taken_lastOpen (about : WorkerId) :
    ((s.taken w message rest).workers w).lastOpen about = nextOpen about ((s.workers w).lastOpen about) message := by
  simp [State.taken]

theorem taken_member {v : WorkerId} {sent : ToWorker} (queued : s.inbox w = message :: rest)
    (member : sent ∈ (s.taken w message rest).inbox v) :
    sent ∈ s.inbox v := by
  by_cases same : v = w
  · subst same
    rw [taken_inbox] at member
    rw [queued]
    exact List.mem_cons_of_mem _ member
  · rw [(taken_other same).2] at member
    exact member

theorem Facts.taken (facts : Facts s) (queued : s.inbox w = message :: rest) :
    Facts (s.taken w message rest) :=
  { facts with
    mail := fun v sent member => facts.mail v sent (taken_member queued member)
    routes := by
      intro v d route found
      rw [taken_keeps s w (·.peerDeviceWorkerMap) message rest (fun _ _ _ => rfl) v] at found
      exact facts.routes v d route found }

end Taking

/-! The opens that a worker gets for the channels from one caller, and the callee's ends
that they leave. -/
section Opens

variable {s : State} {w : WorkerId}

def fitsOpen (about : WorkerId) (last : Option Nat) : ToWorker → Prop
  | .open caller _ _ chan => caller = about → ∀ earlier, last = some earlier → earlier < chan
  | .allow caller _ chan _ => caller = about → last = some chan
  | _ => True

/-- The channel of the last open for `about` once the inbox is empty. -/
def latestOpen (s : State) (w about : WorkerId) : Option Nat :=
  latest (nextOpen about) ((s.workers w).lastOpen about) (s.inbox w)

structure Opens (s : State) : Prop where
  allowed : ∀ chan d, d ∈ (s.channels chan).allowed → Granted s chan d
  unopened : ∀ chan, (s.channels chan).far = .transit → (s.channels chan).allowed = []
  ends : ∀ w other e, (s.workers w).peerChannels other = some e →
    e.chan < s.nextChan ∧ s.owner e = w ∧ s.peer e = other ∧ s.port e ≠ .transit
  stream : ∀ w about, Sound (nextOpen about) (fitsOpen about) ((s.workers w).lastOpen about) (s.inbox w)
  current : ∀ entry ∈ s.channelRegistry, latestOpen s entry.callee entry.caller = some entry.chan
  opened : ∀ w caller chan, (s.workers w).lastOpen caller = some chan → Parties s chan caller w ∧
    ((s.workers w).peerChannels caller = some ⟨chan, .callee⟩ ∨ (s.channels chan).far = .closed)
  served : ∀ w caller chan, (s.workers w).peerChannels caller = some ⟨chan, .callee⟩ →
    (s.workers w).lastOpen caller = some chan
  openings : ∀ w caller appKey d chan, .open caller appKey d chan ∈ s.inbox w →
    (s.workers w).ended = true ∨ (s.channels chan).far = .transit

theorem opens_fresh : Opens State.fresh := by
  constructor <;> simp [State.fresh, Sound]

theorem latestOpen_known (facts : Facts s) (opens : Opens s) {about : WorkerId} {chan : Nat}
    (found : latestOpen s w about = some chan) :
    chan < s.nextChan := by
  have known : ∀ chan, latestOpen s w about = some chan → chan < s.nextChan := by
    apply sound_keeps (fun last => ∀ chan, last = some chan → chan < s.nextChan) (opens.stream w about)
    · intro message member last fits known chan next
      have addressed := facts.mail w message member
      cases message with
      | «open» caller appKey d opened =>
          simp only [nextOpen, openOf] at next
          split at next
          · cases next
            exact addressed.1.1
          · exact known chan next
      | _ => exact known chan next
    · intro chan last
      exact (opens.opened w about chan last).1.1
  exact known chan found

/-- A message that fits joins the stream; the pair of an open has no channel yet. -/
theorem Opens.send {message : ToWorker} (opens : Opens s)
    (fits : ∀ about, fitsOpen about (latestOpen s w about) message)
    (unregistered : ∀ entry ∈ s.channelRegistry, entry.callee = w → openOf entry.caller message = none)
    (untaken : ∀ caller appKey d chan, message = .open caller appKey d chan →
      (s.workers w).ended = true ∨ (s.channels chan).far = .transit) :
    Opens (s.send w message) :=
  { opens with
    stream := by
      intro other about
      by_cases same : other = w
      · subst same
        simp only [State.send, put_same, sound_snoc]
        exact ⟨opens.stream other about, fits about⟩
      · simp only [State.send, put_other _ _ same]
        exact opens.stream other about
    current := by
      intro entry member
      have before := opens.current entry member
      by_cases same : entry.callee = w
      · have latestNow : latestOpen (s.send w message) entry.callee entry.caller =
            nextOpen entry.caller (latestOpen s entry.callee entry.caller) message := by
          simp [latestOpen, State.send, same]
        rw [latestNow, nextOpen, unregistered entry member same]
        exact before
      · simp only [latestOpen, State.send, put_other _ _ same]
        exact before
    openings := by
      intro other caller appKey d chan member
      rcases (mem_send_inbox s).mp member with old | ⟨rfl, new⟩
      · exact opens.openings other caller appKey d chan old
      · exact untaken caller appKey d chan new.symm }

/-- Messages other than opens and allows fit anywhere. -/
theorem Opens.sendOther {message : ToWorker} (opens : Opens s)
    (notOpen : ∀ caller appKey d chan, message ≠ .open caller appKey d chan)
    (notAllow : ∀ caller d chan id, message ≠ .allow caller d chan id) :
    Opens (s.send w message) := by
  apply opens.send
  · intro about
    cases message with
    | «open» caller appKey d chan => exact absurd rfl (notOpen caller appKey d chan)
    | allow caller d chan id => exact absurd rfl (notAllow caller d chan id)
    | _ => trivial
  · intro entry member same
    cases message with
    | «open» caller appKey d chan => exact absurd rfl (notOpen caller appKey d chan)
    | _ => rfl
  · intro caller appKey d chan same
    exact absurd same (notOpen caller appKey d chan)

/-- The workers change in what the stream does not read. -/
theorem Opens.workers {workers : WorkerId → Worker} (opens : Opens s)
    (ended : ∀ w, (workers w).ended = (s.workers w).ended)
    (peerChannels : ∀ w, (workers w).peerChannels = (s.workers w).peerChannels)
    (lastOpen : ∀ w, (workers w).lastOpen = (s.workers w).lastOpen) :
    Opens { s with workers := workers } where
  allowed := opens.allowed
  unopened := opens.unopened
  ends := by
    intro w other e
    rw [peerChannels w]
    exact opens.ends w other e
  stream := by
    intro w about
    rw [lastOpen w]
    exact opens.stream w about
  current := by
    intro entry member
    simp only [latestOpen, lastOpen]
    exact opens.current entry member
  opened := by
    intro w caller chan
    rw [lastOpen w, peerChannels w]
    exact opens.opened w caller chan
  served := by
    intro w caller chan
    rw [lastOpen w, peerChannels w]
    exact opens.served w caller chan
  openings := by
    intro w caller appKey d chan
    rw [ended w]
    exact opens.openings w caller appKey d chan

theorem taken_latestOpen {message : ToWorker} {rest : List ToWorker} (queued : s.inbox w = message :: rest)
    (v about : WorkerId) :
    latestOpen (s.taken w message rest) v about = latestOpen s v about :=
  taken_latest (·.lastOpen about) queued (taken_lastOpen about) v

/-- The worker takes a message that is not an open. -/
theorem Opens.taken {message : ToWorker} {rest : List ToWorker} (opens : Opens s)
    (queued : s.inbox w = message :: rest) (notOpen : ∀ about, openOf about message = none) :
    Opens (s.taken w message rest) := by
  have peerChannels := taken_keeps s w (·.peerChannels) message rest (fun _ _ _ => rfl)
  have ended := taken_keeps s w (·.ended) message rest (fun _ _ _ => rfl)
  have lastOpen : ∀ v, ((s.taken w message rest).workers v).lastOpen = (s.workers v).lastOpen := by
    intro v
    by_cases same : v = w
    · subst same
      funext about
      rw [taken_lastOpen, nextOpen, notOpen]
      rfl
    · rw [(taken_other same).1]
  constructor
  · exact opens.allowed
  · exact opens.unopened
  · intro v other e
    rw [peerChannels v]
    exact opens.ends v other e
  · intro v about
    exact taken_sound (·.lastOpen about) queued (taken_lastOpen about) (fun v => opens.stream v about) v
  · intro entry member
    rw [taken_latestOpen queued]
    exact opens.current entry member
  · intro v caller chan
    rw [lastOpen v, peerChannels v]
    exact opens.opened v caller chan
  · intro v caller chan
    rw [lastOpen v, peerChannels v]
    exact opens.served v caller chan
  · intro v caller appKey d chan member
    rw [ended v]
    exact opens.openings v caller appKey d chan (taken_member queued member)

/-- Channels and the ends in use change, but no stream does. -/
theorem Opens.edit {channels : Nat → Channel} {workers : WorkerId → Worker} (opens : Opens s)
    (grows : Grows s { s with channels := channels, workers := workers })
    (lastOpen : ∀ w, (workers w).lastOpen = (s.workers w).lastOpen)
    (ended : ∀ w, (s.workers w).ended = true → (workers w).ended = true)
    (allowed : ∀ chan d, d ∈ (channels chan).allowed → Granted s chan d)
    (unopened : ∀ chan, (channels chan).far = .transit → (channels chan).allowed = [])
    (ends : ∀ w other e, (workers w).peerChannels other = some e → e.chan < s.nextChan ∧
      (channels e.chan).owner e.side = w ∧ (channels e.chan).owner e.side.other = other ∧
      (channels e.chan).port e.side ≠ .transit)
    (closed : ∀ chan, (s.channels chan).far = .closed → (channels chan).far = .closed)
    (kept : ∀ w caller chan, (s.workers w).peerChannels caller = some ⟨chan, .callee⟩ →
      (workers w).peerChannels caller = some ⟨chan, .callee⟩ ∨ (channels chan).far = .closed)
    (served : ∀ w caller chan, (workers w).peerChannels caller = some ⟨chan, .callee⟩ →
      (s.workers w).peerChannels caller = some ⟨chan, .callee⟩)
    (openings : ∀ w caller appKey d chan, .open caller appKey d chan ∈ s.inbox w →
      (s.channels chan).far = .transit → (workers w).ended = true ∨ (channels chan).far = .transit) :
    Opens { s with channels := channels, workers := workers } where
  allowed := allowed
  unopened := unopened
  ends := ends
  stream := by
    intro w about
    rw [lastOpen w]
    exact opens.stream w about
  current := by
    intro entry member
    simp only [latestOpen, lastOpen]
    exact opens.current entry member
  opened := by
    intro w caller chan
    rw [lastOpen w]
    intro last
    obtain ⟨parties, inUse | gone⟩ := opens.opened w caller chan last
    · exact ⟨parties.grow grows, kept w caller chan inUse⟩
    · exact ⟨parties.grow grows, Or.inr (closed chan gone)⟩
  served := by
    intro w caller chan inUse
    rw [lastOpen w]
    exact opens.served w caller chan (served w caller chan inUse)
  openings := by
    intro w caller appKey d chan member
    rcases opens.openings w caller appKey d chan member with dead | untaken
    · exact Or.inl (ended w dead)
    · exact openings w caller appKey d chan member untaken

end Opens

/-! A port changes on one side of a channel. -/
section Ports

variable {s : State} {chan : Nat} {side : Side} {port : Port}

/-- Taking the caller's port or closing a side takes no device away. -/
theorem withPort_grows {workers : WorkerId → Worker} (harmless : side = .caller ∨ port = .closed) :
    Grows s { s.withPort chan side port with workers := workers } := by
  apply grows_of_edit
  · exact withPort_keeps s chan side port (·.caller) (fun _ _ => rfl) (fun _ _ => rfl)
  · exact withPort_keeps s chan side port (·.callee) (fun _ _ => rfl) (fun _ _ => rfl)
  · exact withPort_keeps s chan side port (·.first) (fun _ _ => rfl) (fun _ _ => rfl)
  · intro other _ d ready
    have allowed := withPort_keeps s chan side port (·.allowed) (fun _ _ => rfl) (fun _ _ => rfl) other
    have first := withPort_keeps s chan side port (·.first) (fun _ _ => rfl) (fun _ _ => rfl) other
    have far : ((s.withPort chan side port).channels other).far =
        if other = chan ∧ .callee = side then port else (s.channels other).far :=
      withPort_port s chan side port other .callee
    simp only [Ready] at ready ⊢
    rw [allowed, first, far]
    split
    next changed =>
      rcases harmless with near | shut
      · rw [near] at changed
        cases changed.2
      · exact Or.inr (Or.inl shut)
    next => exact ready

end Ports

structure Sane (s : State) : Prop where
  facts : Facts s
  opens : Opens s

end Countinghouse.PeerGrants
