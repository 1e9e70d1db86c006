import Countinghouse.PeerPorts

/-!
Channels that the broker has dropped. closeRevoked tells both workers of the pair,
invalidateWorker only the other worker of each channel; a worker that is told closes the end
in its place for that worker, and the port's other end is then no longer open either. In the
runs of PeerPorts the end in the place is the one of the channel that was dropped, so it is
enough that one worker is told. With both directions open it can be another channel's.
-/

namespace Countinghouse.PeerRevocation

open PeerBroker PeerGrants PeerHandlers PeerRuns PeerInvokes PeerPorts Streams

/-- The broker has forgotten the channel. -/
def Dropped (s : State) (chan : Nat) : Prop := ∀ entry ∈ s.channelRegistry, entry.chan ≠ chan

/-- A worker is told to close its end of the channel. -/
def Told (s : State) (chan : Nat) (side : Side) : Prop :=
  .invalidate (s.peer ⟨chan, side⟩) chan ∈ s.inbox (s.owner ⟨chan, side⟩)

structure Drops (s : State) : Prop where
  told : ∀ w other chan, .invalidate other chan ∈ s.inbox w → Dropped s chan
  shut : ∀ e : End, s.port e = .closed →
    Dropped s e.chan ∨ (s.workers (s.owner e)).ended = true ∨ (s.workers (s.peer e)).ended = true
  closing : ∀ chan < s.nextChan, Dropped s chan → ∃ side, s.port ⟨chan, side⟩ = .closed ∨ Told s chan side

theorem drops_fresh : Drops State.fresh := by
  constructor <;> simp [State.fresh, Dropped]

/-! What a worker does. -/
section Workers

variable {s t : State} {w other : WorkerId} {message : ToWorker} {rest : List ToWorker}

/-- Ends are closed, and messages taken. -/
theorem Drops.worker (drops : Drops s) (registry : t.channelRegistry = s.channelRegistry)
    (nextChan : t.nextChan = s.nextChan)
    (owner : ∀ chan side, (t.channels chan).owner side = (s.channels chan).owner side)
    (ended : ∀ w, (s.workers w).ended = true → (t.workers w).ended = true)
    (closed : ∀ chan side, (s.channels chan).port side = .closed → (t.channels chan).port side = .closed)
    (shutting : ∀ chan side, (t.channels chan).port side = .closed → (s.channels chan).port side = .closed ∨
      Dropped s chan ∨ (t.workers ((s.channels chan).owner side)).ended = true ∨
      (t.workers ((s.channels chan).owner side.other)).ended = true)
    (inbox : ∀ w, ∀ message ∈ t.inbox w, message ∈ s.inbox w)
    (handled : ∀ w other chan, .invalidate other chan ∈ s.inbox w →
      .invalidate other chan ∈ t.inbox w ∨ ∃ side, (t.channels chan).port side = .closed) :
    Drops t := by
  have dropped : ∀ chan, Dropped t chan ↔ Dropped s chan := by
    intro chan
    rw [Dropped, registry]
    rfl
  constructor
  · intro v about chan member
    rw [dropped]
    exact drops.told v about chan (inbox v _ member)
  · intro e isShut
    rw [dropped, State.owner, State.peer, owner, owner]
    rcases shutting e.chan e.side isShut with before | now
    · rcases drops.shut e before with gone | mine | theirs
      · exact Or.inl gone
      · exact Or.inr (Or.inl (ended _ mine))
      · exact Or.inr (Or.inr (ended _ theirs))
    · exact now
  · intro chan known gone
    rw [nextChan] at known
    rw [dropped] at gone
    obtain ⟨side, before | told⟩ := drops.closing chan known gone
    · exact ⟨side, Or.inl (closed chan side before)⟩
    · rcases handled _ _ _ told with waits | ⟨side, isShut⟩
      · refine ⟨side, Or.inr ?_⟩
        rw [Told, State.owner, State.peer, owner, owner]
        exact waits
      · exact ⟨side, Or.inl isShut⟩

/-- The worker takes a message that drops nothing, and closes nothing. -/
theorem Drops.takes (drops : Drops s) (queued : s.inbox w = message :: rest)
    (noDrop : ∀ other chan, message ≠ .invalidate other chan) (registry : t.channelRegistry = s.channelRegistry)
    (nextChan : t.nextChan = s.nextChan)
    (owner : ∀ chan side, (t.channels chan).owner side = (s.channels chan).owner side)
    (ended : ∀ w, (t.workers w).ended = (s.workers w).ended)
    (port : ∀ chan side, (t.channels chan).port side = .closed ↔ (s.channels chan).port side = .closed)
    (inbox : t.inbox = (s.taken w message rest).inbox) :
    Drops t := by
  apply drops.worker registry nextChan owner
  · intro v isEnded
    rw [ended v]
    exact isEnded
  · intro chan side
    exact (port chan side).mpr
  · intro chan side isShut
    exact Or.inl ((port chan side).mp isShut)
  · intro v sent member
    rw [inbox] at member
    exact taken_member queued member
  · intro v about chan member
    left
    rw [inbox]
    by_cases same : v = w
    · subst same
      rw [queued] at member
      rw [taken_inbox]
      rcases List.mem_cons.mp member with first | later
      · exact absurd first.symm (noDrop about chan)
      · exact later
    · rw [(taken_other same).2]
      exact member

theorem Drops.calls {workers : WorkerId → Worker} {outbox : WorkerId → List ToMain} {flights : List Flight}
    (drops : Drops s) (ended : ∀ w, (workers w).ended = (s.workers w).ended) :
    Drops { s with workers := workers, outbox := outbox, flights := flights } := by
  apply drops.worker
  · rfl
  · rfl
  · exact fun _ _ => rfl
  · intro v isEnded
    exact (ended v).trans isEnded
  · exact fun _ _ isShut => isShut
  · exact fun _ _ isShut => Or.inl isShut
  · exact fun _ _ member => member
  · exact fun _ _ _ member => Or.inl member

theorem call_drops (drops : Drops s) (d : DeviceId) (appKey : AppKey) :
    Drops (invokeActionViaPeerChannel s w d appKey) := by
  rcases call_spec s w d appKey with ⟨_, _, _, _, _, same⟩ | ⟨workers, outbox, only, _, _, _, same⟩
  · rw [same]
    exact drops.calls fun _ => rfl
  · rw [same]
    exact drops.calls fun v => by rw [only v]

theorem flush_drops (drops : Drops s) (d : DeviceId) (target : Option Route) :
    Drops (flushPendingPeerInvokes s w d target) := by
  obtain ⟨workers, flights, only, same, _⟩ := flush_spec s w d target
  rw [same]
  exact drops.calls fun v => by rw [only v]

theorem adopted_drops {e : End} (drops : Drops s) (adopts : Adopts s t w other e message rest)
    (queued : s.inbox w = message :: rest) (noDrop : ∀ other chan, message ≠ .invalidate other chan)
    (transit : s.port e = .transit) :
    Drops t := by
  apply drops.takes queued noDrop adopts.registry adopts.nextChan adopts.owner adopts.ended _ adopts.inbox
  intro chan side
  rw [adopts.port]
  split
  next here =>
    obtain ⟨rfl, rfl⟩ := here
    rw [State.port] at transit
    simp [transit]
  next => exact Iff.rfl

/-- An end that was in use is closed while the worker takes a message. -/
theorem Drops.closes (drops : Drops s) {e : End} {inbox : WorkerId → List ToWorker}
    {workers : WorkerId → Worker} (ended : ∀ w, (workers w).ended = (s.workers w).ended)
    (due : Dropped s e.chan ∨ (s.workers (s.owner e)).ended = true ∨ (s.workers (s.peer e)).ended = true)
    (fewer : ∀ w, ∀ message ∈ inbox w, message ∈ s.inbox w)
    (handled : ∀ w other chan, .invalidate other chan ∈ s.inbox w → .invalidate other chan ∈ inbox w ∨ chan = e.chan) :
    Drops { s.withPort e.chan e.side .closed with inbox := inbox, workers := workers } := by
  have port := withPort_port s e.chan e.side .closed
  apply drops.worker
  · rfl
  · rfl
  · intro chan side
    exact withPort_keeps s e.chan e.side .closed (·.owner side)
      (fun _ _ => by cases side <;> rfl) (fun _ _ => by cases side <;> rfl) chan
  · intro v isEnded
    exact (ended v).trans isEnded
  · intro chan side isShut
    rw [port]
    split
    · rfl
    · exact isShut
  · intro chan side isShut
    rw [port] at isShut
    split at isShut
    next here =>
      right
      obtain ⟨rfl, rfl⟩ := here
      simp only [ended]
      exact due
    next => exact Or.inl isShut
  · exact fewer
  · intro v about chan member
    rcases handled v about chan member with waits | rfl
    · exact Or.inl waits
    · exact Or.inr ⟨e.side, by rw [port, if_pos ⟨rfl, rfl⟩]⟩

theorem exits_drops (drops : Drops s) : Drops (exits s w) := by
  have ended : ∀ v, ((exits s w).workers v).ended = ((s.workers v).ended || decide (v = w)) := by
    intro v
    by_cases same : v = w
    · subst same
      simp [exits, State.withWorker]
    · simp [exits, State.withWorker, put_other _ _ same, same]
  apply drops.worker
  · rfl
  · rfl
  · exact exits_owner s w
  · intro v isEnded
    rw [ended, isEnded, Bool.true_or]
  · intro chan side isShut
    rw [exits_port]
    split
    · rfl
    · exact isShut
  · intro chan side isShut
    rw [exits_port] at isShut
    split at isShut
    next mine =>
      right
      right
      left
      rw [ended, mine]
      simp
    next => exact Or.inl isShut
  · exact fun _ _ member => member
  · exact fun _ _ _ member => Or.inl member

/-- The end in the place is the one of the channel that the message is about. -/
theorem invalidated_drops {chan : Nat} (ports : Ports s) (drops : Drops s)
    (queued : s.inbox w = .invalidate other chan :: rest) :
    Drops (onPeerInvalidate (s.taken w (.invalidate other chan) rest) w other) := by
  have last : (s.workers w).lastPort other = some chan := by
    have fits := ports.stream w other
    rw [queued] at fits
    exact fits.1 rfl
  have gone := drops.told w other chan (by simp [queued])
  have inUseKept := taken_keeps s w (·.peerChannels) (.invalidate other chan) rest (fun _ _ _ => rfl) w
  have endedKept := taken_keeps s w (·.ended) (.invalidate other chan) rest fun _ _ _ => rfl
  have fewer : ∀ v, ∀ message ∈ (s.taken w (.invalidate other chan) rest).inbox v, message ∈ s.inbox v :=
    fun v message member => taken_member queued member
  have handled : ∀ v about named, .invalidate about named ∈ s.inbox v →
      .invalidate about named ∈ (s.taken w (.invalidate other chan) rest).inbox v ∨ named = chan := by
    intro v about named member
    by_cases same : v = w
    · subst same
      rw [queued] at member
      rcases List.mem_cons.mp member with first | later
      · cases first
        exact Or.inr rfl
      · left
        rw [taken_inbox]
        exact later
    · left
      rw [(taken_other same).2]
      exact member
  obtain ⟨side, known, mine, theirs, place⟩ := ports.placed w other chan last
  -- an end that was closed before leaves nothing to close
  have already : s.port ⟨chan, side⟩ = .closed →
      Drops (s.taken w (.invalidate other chan) rest) := by
    intro isShut
    apply drops.worker
    · rfl
    · rfl
    · exact fun _ _ => rfl
    · intro v isEnded
      exact (endedKept v).trans isEnded
    · exact fun _ _ isShut => isShut
    · exact fun _ _ isShut => Or.inl isShut
    · exact fewer
    · intro v about named member
      rcases handled v about named member with waits | rfl
      · exact Or.inl waits
      · exact Or.inr ⟨side, isShut⟩
  cases inUse : (s.workers w).peerChannels other with
  | none =>
      simp only [onPeerInvalidate, inUseKept, inUse]
      rcases place with place | isShut
      · rw [inUse] at place
        cases place
      · exact already isShut
  | some e =>
      have chanIs : e.chan = chan := by
        have lastIs := ports.inUse w other e inUse
        rw [last] at lastIs
        exact (Option.some.inj lastIs).symm
      simp only [onPeerInvalidate, inUseKept, inUse]
      rcases invalidate_spec (s.taken w (.invalidate other chan) rest) e with
        ⟨isShut, same⟩ | ⟨workers, same, unlinks⟩
      · rw [same]
        rcases place with place | isShut'
        · rw [inUse] at place
          cases place
          exact already isShut
        · exact already isShut'
      · rw [same]
        apply drops.closes
        · intro v
          rw [(unlinks v).ended]
          exact endedKept v
        · left
          rw [chanIs]
          exact gone
        · exact fewer
        · rw [chanIs]
          exact handled

theorem handleNext_drops (sane : Sane s) (ports : Ports s) (drops : Drops s) (free : givenFree s w = true) :
    Drops (handleNext s w) := by
  cases queued : s.inbox w with
  | nil => simpa only [handleNext, queued] using drops
  | cons message rest =>
      by_cases dead : (s.workers w).ended = true
      · simpa only [handleNext, queued, if_pos dead] using drops
      have alive : (s.workers w).ended = false := by simpa using dead
      have endedKept := taken_keeps s w (·.ended) message rest fun _ _ _ => rfl
      simp only [handleNext, queued, if_neg dead]
      cases message with
      | grant d target port chan =>
          cases port with
          | false =>
              simp only [onMessage, onPeerChannelGrant, Bool.false_and, Bool.false_eq_true, if_false]
              apply flush_drops
              apply drops.takes queued (by simp)
              · rfl
              · rfl
              · exact fun _ _ => rfl
              · intro v
                exact (withRoute_keeps _ w d ⟨target, chan⟩ (·.ended) (fun _ _ => rfl) v).trans (endedKept v)
              · exact fun _ _ => Iff.rfl
              · rfl
          | true =>
              have near : (s.channels chan).near = .transit := by
                simpa [alive] using ports.untaken w d target chan (by simp [queued])
              simp only [givenFree, queued] at free
              simp only [onMessage, onPeerChannelGrant, taken_noLive, free, Bool.and_self, if_true]
              apply flush_drops
              exact adopted_drops drops (grant_adopts _ rest) queued (by simp) near
      | deny d errCode =>
          simp only [onMessage, onPeerChannelDeny]
          apply flush_drops
          apply drops.takes queued (by simp)
          · rfl
          · rfl
          · exact fun _ _ => rfl
          · exact endedKept
          · exact fun _ _ => Iff.rfl
          · rfl
      | «open» caller appKey d chan =>
          have far : (s.channels chan).far = .transit := by
            simpa [alive] using sane.opens.openings w caller appKey d chan (by simp [queued])
          exact adopted_drops drops (open_adopts rest) queued (by simp) far
      | allow caller d chan id =>
          have taken : Drops (s.taken w (.allow caller d chan id) rest) := by
            apply drops.takes queued (by simp)
            · rfl
            · rfl
            · exact fun _ _ => rfl
            · exact endedKept
            · exact fun _ _ => Iff.rfl
            · rfl
          simp only [onMessage, onPeerChannelAllow]
          split
          next opened _ =>
            have keeps := fun {γ : Type} (field : Channel → γ) =>
              withChannel_keeps (s.taken w (.allow caller d chan id) rest) field opened
                fun channel => { channel with allowed := d :: channel.allowed }
            apply drops.takes queued (by simp)
            · rfl
            · rfl
            · intro other side
              exact keeps (·.owner side) (by cases side <;> rfl) other
            · exact endedKept
            · intro other side
              exact iff_of_eq (congrArg (· = Port.closed) (keeps (·.port side) (by cases side <;> rfl) other))
            · rfl
          · exact { taken with }
      | invalidate other chan => exact invalidated_drops ports drops queued

theorem portClose_drops {e : End} (drops : Drops s) (otherShut : s.port ⟨e.chan, e.side.other⟩ = .closed) :
    Drops (invalidate s e) := by
  have due := drops.shut ⟨e.chan, e.side.other⟩ otherShut
  rcases invalidate_spec s e with ⟨_, same⟩ | ⟨workers, same, unlinks⟩
  · rw [same]
    exact drops
  · rw [same]
    apply drops.closes
    · exact fun v => (unlinks v).ended
    · rcases due with gone | theirs | mine
      · exact Or.inl gone
      · exact Or.inr (Or.inr theirs)
      · right
        left
        cases side : e.side with
        | caller => simpa [State.owner, State.peer, side, Side.other] using mine
        | callee => simpa [State.owner, State.peer, side, Side.other] using mine
    · exact fun _ _ member => member
    · exact fun _ _ _ member => Or.inl member

end Workers

/-! What the main thread does. -/
section Broker

variable {s : State} {w caller callee : WorkerId}

theorem Drops.send {message : ToWorker} (drops : Drops s)
    (dropped : ∀ other chan, message = .invalidate other chan → Dropped s chan) :
    Drops (s.send w message) where
  told := by
    intro v other chan member
    rcases (mem_send_inbox s).mp member with old | ⟨_, new⟩
    · exact drops.told v other chan old
    · exact dropped other chan new.symm
  shut := drops.shut
  closing := by
    intro chan known gone
    obtain ⟨side, isShut | told⟩ := drops.closing chan known gone
    · exact ⟨side, Or.inl isShut⟩
    · exact ⟨side, Or.inr ((mem_send_inbox s).mpr (Or.inl told))⟩

/-- The registry has the same channels, whatever their grants. -/
theorem Drops.quiet {deviceMap : DeviceId → Option WorkerId} {registry : List Entry} {asks : List Ask}
    {checks : Nat} {waiting : List Nat} {tickets : Nat → Ticket} {nextId : Nat} {gone : WorkerId → Bool}
    {outbox : WorkerId → List ToMain} {flights : List Flight} {granted : List Success} (drops : Drops s)
    (chans : ∀ chan, (∀ entry ∈ registry, entry.chan ≠ chan) ↔ Dropped s chan) :
    Drops { s with
      deviceMap := deviceMap, channelRegistry := registry, asks := asks, recheckInFlight := checks,
      waiting := waiting, tickets := tickets, nextId := nextId, gone := gone, outbox := outbox,
      flights := flights, granted := granted } where
  told := by
    intro v other chan member
    exact (chans chan).mpr (drops.told v other chan member)
  shut := by
    intro e isShut
    rcases drops.shut e isShut with gone | ended
    · exact Or.inl ((chans e.chan).mpr gone)
    · exact Or.inr ended
  closing := by
    intro chan known gone
    exact drops.closing chan known ((chans chan).mp gone)

theorem deny_drops (drops : Drops s) (d : DeviceId) (errCode : DenyCode) : Drops (s.deny caller d errCode) := by
  apply drops.send
  intro other chan impossible
  cases impossible

theorem denyAll_drops (ids : List Nat) (drops : Drops s) : Drops (denyAll ids s) := by
  induction ids generalizing s with
  | nil => exact drops
  | cons id rest ih => exact ih (deny_drops drops _ _)

/-- Entries are dropped, and one of the workers of each is told. -/
theorem Drops.forget {registry : List Entry} {inbox : WorkerId → List ToWorker} (drops : Drops s)
    (entries : ∀ entry ∈ registry, entry ∈ s.channelRegistry)
    (kept : ∀ w, ∀ message ∈ s.inbox w, message ∈ inbox w)
    (added : ∀ w other chan, .invalidate other chan ∈ inbox w →
      .invalidate other chan ∈ s.inbox w ∨ ∀ entry ∈ registry, entry.chan ≠ chan)
    (told : ∀ entry ∈ s.channelRegistry, (∀ other ∈ registry, other.chan ≠ entry.chan) →
      ∃ side, .invalidate (s.peer ⟨entry.chan, side⟩) entry.chan ∈ inbox (s.owner ⟨entry.chan, side⟩)) :
    Drops { s with channelRegistry := registry, inbox := inbox } := by
  have still : ∀ chan, Dropped s chan → ∀ entry ∈ registry, entry.chan ≠ chan :=
    fun chan gone entry member => gone entry (entries entry member)
  constructor
  · intro v other chan member
    rcases added v other chan member with old | gone
    · exact still chan (drops.told v other chan old)
    · exact gone
  · intro e isShut
    rcases drops.shut e isShut with gone | ended
    · exact Or.inl (still e.chan gone)
    · exact Or.inr ended
  · intro chan known gone
    by_cases before : Dropped s chan
    · obtain ⟨side, isShut | waits⟩ := drops.closing chan known before
      · exact ⟨side, Or.inl isShut⟩
      · exact ⟨side, Or.inr (kept _ _ waits)⟩
    · simp only [Dropped, not_forall, not_not] at before
      obtain ⟨entry, member, rfl⟩ := before
      obtain ⟨side, sent⟩ := told entry member gone
      exact ⟨side, Or.inr sent⟩

theorem closeRevoked_drops {chan : Nat} (sane : Sane s) (ports : Ports s) (drops : Drops s) :
    Drops (closeRevoked s caller callee chan) := by
  simp only [closeRevoked]
  split
  · exact drops
  next entry found =>
    obtain ⟨known, callerIs, calleeIs⟩ := entryFor_some found
    split
    next chanIs =>
      -- all entries of the pair have the channel of its last port
      have same : ∀ other ∈ s.channelRegistry, other.caller = caller → other.callee = callee → other.chan = chan := by
        intro other member isCaller isCallee
        have last := (ports.current other member).1
        rw [isCaller, isCallee, ← callerIs, ← calleeIs, (ports.current entry known).1] at last
        exact (Option.some.inj last).symm.trans chanIs
      have parties := sane.facts.entries entry known
      rw [callerIs, calleeIs, chanIs] at parties
      have gone : ∀ other ∈ s.channelRegistry.filter fun other => !(other.caller = caller && other.callee = callee),
          other.chan ≠ chan := by
        intro other member sameChan
        obtain ⟨registered, apart⟩ := List.mem_filter.mp member
        have others := sane.facts.entries other registered
        rw [sameChan] at others
        have isCaller : other.caller = caller := others.2.1.symm.trans parties.2.1
        have isCallee : other.callee = callee := others.2.2.symm.trans parties.2.2
        simp [isCaller, isCallee] at apart
      apply drops.forget
      · intro other member
        exact (List.mem_filter.mp member).1
      · intro v message member
        exact (mem_send_inbox _).mpr (Or.inl ((mem_send_inbox _).mpr (Or.inl member)))
      · intro v about named member
        rcases (mem_send_inbox _).mp member with first | ⟨_, last⟩
        · rcases (mem_send_inbox _).mp first with old | ⟨_, last⟩
          · exact Or.inl old
          · cases last
            exact Or.inr gone
        · cases last
          exact Or.inr gone
      · intro other registered removed
        have isPair : other.caller = caller ∧ other.callee = callee := by
          by_contra apart
          apply removed other _ rfl
          apply List.mem_filter.mpr
          refine ⟨registered, ?_⟩
          simp only [Bool.not_eq_true', Bool.and_eq_false_imp, decide_eq_true_eq, decide_eq_false_iff_not]
          exact fun isCaller isCallee => apart ⟨isCaller, isCallee⟩
        rw [same other registered isPair.1 isPair.2]
        refine ⟨.caller, (mem_send_inbox _).mpr (Or.inl ((mem_send_inbox _).mpr (Or.inr ⟨parties.2.1, ?_⟩)))⟩
        rw [show s.peer ⟨chan, .caller⟩ = callee from parties.2.2]
    next => exact drops

/-! What invalidateWorker sends. -/

theorem tellOthers_kept (entries : List Entry) {message : ToWorker} {v : WorkerId} (member : message ∈ s.inbox v) :
    message ∈ (tellOthers w entries s).inbox v := by
  induction entries generalizing s with
  | nil => exact member
  | cons entry rest ih => exact ih ((mem_send_inbox s).mpr (Or.inl member))

theorem tellOthers_added (entries : List Entry) {message : ToWorker} {v : WorkerId}
    (member : message ∈ (tellOthers w entries s).inbox v) :
    message ∈ s.inbox v ∨ ∃ entry ∈ entries, message = .invalidate w entry.chan := by
  induction entries generalizing s with
  | nil => exact Or.inl member
  | cons entry rest ih =>
      rcases ih member with before | ⟨other, later, same⟩
      · rcases (mem_send_inbox s).mp before with old | ⟨_, rfl⟩
        · exact Or.inl old
        · exact Or.inr ⟨entry, List.mem_cons_self, rfl⟩
      · exact Or.inr ⟨other, List.mem_cons_of_mem _ later, same⟩

theorem tellOthers_tells (entries : List Entry) {entry : Entry} (member : entry ∈ entries) :
    .invalidate w entry.chan ∈
      (tellOthers w entries s).inbox (if entry.caller = w then entry.callee else entry.caller) := by
  induction entries generalizing s with
  | nil => cases member
  | cons first rest ih =>
      rcases List.mem_cons.mp member with rfl | later
      · exact tellOthers_kept rest ((mem_send_inbox s).mpr (Or.inr ⟨rfl, rfl⟩))
      · exact ih later

theorem invalidateWorker_drops (sane : Sane s) (drops : Drops s) : Drops (invalidateWorker s w) := by
  have same : invalidateWorker s w = { s with
      channelRegistry := s.channelRegistry.filter fun entry => !involves w entry
      inbox := (invalidateWorker s w).inbox } := by
    have told := tellOthers_keeps (fun s => { s with inbox := fun _ => [] }) (fun _ _ => rfl) w
      (s.channelRegistry.filter (involves w))
      { s with channelRegistry := s.channelRegistry.filter fun entry => !involves w entry }
    exact congrArg (fun t : State => { t with inbox := (invalidateWorker s w).inbox }) told
  rw [same]
  apply drops.forget
  · intro entry member
    exact (List.mem_filter.mp member).1
  · exact fun v message member => tellOthers_kept _ member
  · intro v other chan member
    rcases tellOthers_added _ member with old | ⟨entry, dropped, isInvalidate⟩
    · exact Or.inl old
    · right
      cases isInvalidate
      intro other kept sameChan
      obtain ⟨registered, mine⟩ := List.mem_filter.mp dropped
      obtain ⟨alsoRegistered, apart⟩ := List.mem_filter.mp kept
      have parties := sane.facts.entries entry registered
      have others := sane.facts.entries other alsoRegistered
      rw [sameChan] at others
      have isCaller : other.caller = entry.caller := others.2.1.symm.trans parties.2.1
      have isCallee : other.callee = entry.callee := others.2.2.symm.trans parties.2.2
      simp [involves, isCaller, isCallee] at apart mine
      simp [apart] at mine
  · intro entry registered removed
    have mine : involves w entry = true := by
      by_contra apart
      apply removed entry _ rfl
      apply List.mem_filter.mpr
      exact ⟨registered, by simpa using apart⟩
    have parties := sane.facts.entries entry registered
    have sent : .invalidate w entry.chan ∈
        (invalidateWorker s w).inbox (if entry.caller = w then entry.callee else entry.caller) :=
      tellOthers_tells _ (List.mem_filter.mpr ⟨registered, mine⟩)
    by_cases isCaller : entry.caller = w
    · rw [if_pos isCaller] at sent
      refine ⟨.callee, ?_⟩
      rw [show s.owner ⟨entry.chan, .callee⟩ = entry.callee from parties.2.2,
        show s.peer ⟨entry.chan, .callee⟩ = entry.caller from parties.2.1, isCaller]
      exact sent
    · have isCallee : entry.callee = w := by simpa [involves, isCaller] using mine
      rw [if_neg isCaller] at sent
      refine ⟨.caller, ?_⟩
      rw [show s.owner ⟨entry.chan, .caller⟩ = entry.caller from parties.2.1,
        show s.peer ⟨entry.chan, .caller⟩ = entry.callee from parties.2.2, isCallee]
      exact sent

theorem made_drops {d : DeviceId} {appKey : AppKey} (sane : Sane s) (drops : Drops s) :
    Drops { madeChannel s d appKey caller callee with
      channelRegistry := s.channelRegistry ++ [⟨caller, callee, s.nextChan, [(appKey, d)]⟩] } := by
  have dropped : ∀ chan, chan ≠ s.nextChan →
      ((∀ entry ∈ s.channelRegistry ++ [⟨caller, callee, s.nextChan, [(appKey, d)]⟩], entry.chan ≠ chan) ↔
        Dropped s chan) := by
    intro chan old
    constructor
    · intro gone entry member
      exact gone entry (List.mem_append_left _ member)
    · intro gone entry member
      rcases List.mem_append.mp member with before | added
      · exact gone entry before
      · cases List.mem_singleton.mp added
        exact Ne.symm old
  have old : ∀ chan, chan ≠ s.nextChan →
      (madeChannel s d appKey caller callee).channels chan = s.channels chan := fun chan differs => put_other _ _ differs
  constructor
  · intro w other chan member
    have parties := sane.facts.mail w _ member
    have known : chan < s.nextChan := parties.elim (·.1) (·.1)
    exact (dropped chan (Nat.ne_of_lt known)).mpr (drops.told w other chan member)
  · intro e isShut
    have isShut : ((madeChannel s d appKey caller callee).channels e.chan).port e.side = .closed := isShut
    simp only [State.owner, State.peer]
    by_cases new : e.chan = s.nextChan
    · -- a port sent to a worker that has ended
      right
      left
      rw [new, made_new] at isShut ⊢
      cases side : e.side with
      | caller =>
          have ended : (s.workers caller).ended = true := by simpa [side, Channel.port] using isShut
          exact ended
      | callee =>
          have ended : (s.workers callee).ended = true := by simpa [side, Channel.port] using isShut
          exact ended
    · simp only [old e.chan new] at isShut ⊢
      rcases drops.shut e isShut with gone | ended
      · exact Or.inl ((dropped e.chan new).mpr gone)
      · exact Or.inr ended
  · intro chan known gone
    have known : chan < s.nextChan + 1 := known
    have differs : chan ≠ s.nextChan := by
      rintro rfl
      exact gone ⟨caller, callee, s.nextChan, [(appKey, d)]⟩ (by simp) rfl
    obtain ⟨side, waits⟩ := drops.closing chan (by omega) ((dropped chan differs).mp gone)
    refine ⟨side, ?_⟩
    simp only [Told, State.port, State.peer, State.owner, old chan differs]
    exact waits

theorem openChannel_drops {d : DeviceId} {appKey : AppKey} (sane : Sane s) (drops : Drops s) :
    Drops (openChannel s d appKey caller callee) := by
  apply Drops.send
  · apply (made_drops sane drops).send
    intro other chan impossible
    cases impossible
  · intro other chan impossible
    cases impossible

theorem allowDevice_drops {d : DeviceId} {appKey : AppKey} {entry : Entry} (drops : Drops s) :
    Drops (allowDevice s d appKey entry) := by
  have chans : ∀ chan, (∀ other ∈ s.channelRegistry.map fun other =>
      if other = entry then { other with grants := other.grants.insert (appKey, d) } else other, other.chan ≠ chan) ↔
        Dropped s chan := by
    intro chan
    simp only [List.forall_mem_map, Dropped]
    apply forall₂_congr
    intro other _
    split <;> exact Iff.rfl
  simp only [allowDevice]
  split
  · exact deny_drops (drops.quiet chans) d _
  · have sent : Drops (s.send entry.callee (.allow entry.caller d entry.chan s.nextId)) := by
      apply drops.send
      intro other chan impossible
      cases impossible
    exact sent.quiet chans

theorem onAllowed_drops {id : Nat} (drops : Drops s) : Drops (onAllowed s id) := by
  simp only [onAllowed]
  split
  · have rest : Drops { s with waiting := s.waiting.filter fun other => other != id } := drops.quiet fun _ => Iff.rfl
    apply rest.send
    intro other chan impossible
    cases impossible
  · exact drops

theorem answered_drops {ask : Ask} (sane : Sane s) (ports : Ports s) (drops : Drops s) (ok : Bool) :
    Drops (answered s ask ok) := by
  cases ask with
  | missing d appKey caller => exact deny_drops drops d _
  | request d appKey caller callee =>
      cases ok with
      | false => exact deny_drops drops d _
      | true =>
          simp only [answered, if_true, grant]
          split
          · exact allowDevice_drops drops
          · exact openChannel_drops sane drops
  | recheck caller callee chan appKey d =>
      have kept : ∀ entry ∈ s.channelRegistry, ∃ old ∈ s.channelRegistry,
          old.caller = entry.caller ∧ old.callee = entry.callee ∧ old.chan = entry.chan :=
        fun entry member => ⟨entry, member, rfl, rfl, rfl⟩
      have counted : Drops { s with recheckInFlight := s.recheckInFlight - 1 } := drops.quiet fun _ => Iff.rfl
      cases ok with
      | true => exact counted
      | false =>
          apply closeRevoked_drops
          · exact quiet_sane sane kept sane.facts.asks (fun _ _ member => member) (fun _ member _ => member)
          · exact ports.quiet kept
          · exact counted

theorem onWorkerMessage_drops {message : ToMain} (sane : Sane s) (drops : Drops s) (limited known : Bool) :
    Drops (onWorkerMessage s w limited known message) := by
  cases message with
  | request d appKey =>
      have asking (asks : List Ask) : Drops { s with asks := asks } := drops.quiet fun _ => Iff.rfl
      simp only [onWorkerMessage, handleRequest]
      split
      · exact deny_drops drops d _
      · split
        · split
          · exact asking _
          · exact deny_drops drops d _
        · split
          · exact deny_drops drops d _
          · exact asking _
  | selfInvalidate => exact invalidateWorker_drops sane drops
  | allowed id => exact onAllowed_drops drops

end Broker

/-! Runs. -/
section Runs

variable {s : State}

theorem step_drops (sane : Sane s) (ports : Ports s) (drops : Drops s) (action : Action)
    (condition : keepsDirection s action = true) :
    Drops (step s action) := by
  have kept : ∀ entry ∈ s.channelRegistry, ∃ old ∈ s.channelRegistry,
      old.caller = entry.caller ∧ old.callee = entry.callee ∧ old.chan = entry.chan :=
    fun entry member => ⟨entry, member, rfl, rfl, rfl⟩
  cases action with
  | online d worker => exact drops.quiet fun _ => Iff.rfl
  | call worker d appKey =>
      simp only [step]
      split
      · exact drops
      · exact call_drops drops d appKey
  | receive worker limited known =>
      simp only [step]
      split
      · exact drops
      next message rest queued =>
        apply onWorkerMessage_drops
        · apply quiet_sane sane kept sane.facts.asks _ (fun _ member _ => member)
          intro v sent member
          by_cases same : v = worker
          · subst same
            rw [put_same] at member
            rw [queued]
            exact List.mem_cons_of_mem _ member
          · rw [put_other _ _ same] at member
            exact member
        · exact drops.quiet fun _ => Iff.rfl
  | answer place ok =>
      simp only [step]
      split
      · exact drops
      next ask found =>
        apply answered_drops
        · apply quiet_sane sane kept _ (fun _ _ member => member) (fun _ member _ => member)
          intro d appKey caller callee member
          exact sane.facts.asks d appKey caller callee (List.mem_of_mem_eraseIdx member)
        · exact ports.quiet kept
        · exact drops.quiet fun _ => Iff.rfl
  | recheck =>
      simp only [step, recheckGrants]
      split
      · exact drops
      · exact drops.quiet fun _ => Iff.rfl
  | purge worker =>
      apply invalidateWorker_drops
      · exact quiet_sane sane kept sane.facts.asks (fun _ _ member => member) (fun _ member _ => member)
      · exact drops.quiet fun _ => Iff.rfl
  | reload worker =>
      simp only [step]
      split
      · exact drops
      · exact { drops with }
  | next worker => exact handleNext_drops sane ports drops condition
  | portClose e =>
      simp only [step]
      split
      next ready =>
        simp only [Bool.and_eq_true, decide_eq_true_eq] at ready
        exact portClose_drops drops ready.2
      next => exact drops
  | deliver place => exact drops.quiet fun _ => Iff.rfl
  | post e d =>
      simp only [step]
      split
      · exact drops.quiet fun _ => Iff.rfl
      · exact drops
  | exit worker => exact exits_drops drops
  | ended worker =>
      apply denyAll_drops
      exact drops.quiet fun _ => Iff.rfl

/-- What holds in every run that keeps the direction of channels. -/
structure Directed (s : State) : Prop where
  sane : Sane s
  ports : Ports s
  drops : Drops s

theorem step_directed (directed : Directed s) (action : Action) (condition : keepsDirection s action = true) :
    Directed (step s action) where
  sane := step_sane directed.sane action
  ports := step_ports directed.sane directed.ports action condition
  drops := step_drops directed.sane directed.ports directed.drops action condition

theorem directed_fresh : Directed State.fresh := ⟨⟨facts_fresh, opens_fresh⟩, ports_fresh, drops_fresh⟩

theorem run_directed (actions : List Action)
    (meets : ∀ entry ∈ steps actions State.fresh, keepsDirection entry.1 entry.2 = true) :
    Directed (run actions State.fresh) := by
  apply run_keeps Directed (fun s action => keepsDirection s action = true) _ actions State.fresh directed_fresh meets
  intro s action directed condition
  exact step_directed directed action condition

end Runs

/-! Grants and their revocation. -/
section Revocation

variable {s : State}

/-- Once one side of a channel is closed the other carries nothing either, and its 'close'
event is under way. -/
def OpenEnd (s : State) (e : End) : Prop := s.port e = .held ∧ s.port ⟨e.chan, e.side.other⟩ ≠ .closed

/-- Channels that the broker has dropped have no open end once both workers have handled
what it sent them. -/
def Revoked (s : State) : Prop :=
  ∀ chan < s.nextChan, Dropped s chan →
    (∀ side other, .invalidate other chan ∉ s.inbox (s.owner ⟨chan, side⟩)) → ∀ side, ¬ OpenEnd s ⟨chan, side⟩

theorem directed_revoked (directed : Directed s) : Revoked s := by
  intro chan known dropped handled side isOpen
  obtain ⟨closedSide, isShut | told⟩ := directed.drops.closing chan known dropped
  · obtain ⟨held, otherOpen⟩ := isOpen
    cases side <;> cases closedSide <;> simp_all [Side.other]
  · exact handled closedSide _ told

/-- What userAuth has passed on the pair of a channel since it was opened, with the answer that opened it. -/
def Passed (actions : List Action) (s : State) (chan : Nat) (d : DeviceId) : Prop :=
  ∃ success, success.chan = chan ∧ success.deviceID = d ∧ success.caller = (s.channels chan).caller ∧
    success.callee = (s.channels chan).callee ∧ ∃ entry ∈ steps actions State.fresh, Answers entry success

/-- A callee runs only what was passed, whoever has posted the invoke. -/
theorem run_passed (actions : List Action) {flight : Flight}
    (runs : verdict (run actions State.fresh) flight = .run) :
    Passed actions (run actions State.fresh) flight.chan flight.deviceID := by
  have sane := run_sane actions
  have allowed : flight.deviceID ∈ ((run actions State.fresh).channels flight.chan).allowed := by
    simp only [verdict] at runs
    split at runs
    · cases runs
    · cases runs
    · split at runs
      · cases runs
      · split at runs
        · assumption
        · cases runs
  obtain ⟨success, member, sameChan, sameDevice⟩ := sane.opens.allowed flight.chan flight.deviceID allowed
  obtain ⟨_, callerIs, calleeIs⟩ := sane.facts.successes success member
  rw [sameChan] at callerIs calleeIs
  refine ⟨success, sameChan, sameDevice, callerIs.symm, calleeIs.symm, ?_⟩
  rcases run_granted actions ⟨facts_fresh, opens_fresh⟩ member with impossible | answers
  · cases impossible
  · exact answers

/-- Only passed devices are run in any run, and channels are revoked in all runs that keep
their direction. -/
theorem granted_and_revoked (actions : List Action) :
    (∀ flight ∈ (run actions State.fresh).flights, verdict (run actions State.fresh) flight = .run →
      Passed actions (run actions State.fresh) flight.chan flight.deviceID) ∧
    ((∀ entry ∈ steps actions State.fresh, keepsDirection entry.1 entry.2 = true) →
      Revoked (run actions State.fresh)) := by
  constructor
  · intro flight _ runs
    exact run_passed actions runs
  · intro meets
    exact directed_revoked (run_directed actions meets)

/-- A device is granted and called. -/
def grantedOnce : List Action :=
  [.online "b" 2, .call 1 "b" "k", .receive 1 false false, .answer 0 true, .next 2, .next 1]

/-- The next check revokes it. -/
def revokedOnce : List Action :=
  grantedOnce ++ [.deliver 0, .recheck, .answer 0 false, .next 1, .next 2]

theorem granted_once_and_revoked :
    Passed grantedOnce (run grantedOnce State.fresh) 0 "b" ∧ Revoked (run revokedOnce State.fresh) ∧
      (run revokedOnce State.fresh).channelRegistry = [] ∧ 0 < (run revokedOnce State.fresh).nextChan := by
  have called : (⟨0, .callee, "b", some ⟨1, 2, 0⟩⟩ : Flight) ∈ (run grantedOnce State.fresh).flights := by decide
  refine ⟨?_, ?_, by decide, by decide⟩
  · exact (granted_and_revoked grantedOnce).1 _ called (by decide)
  · exact (granted_and_revoked revokedOnce).2 (by decide)

/-- Worker 1 is granted device b of worker 2, and worker 2 device a of worker 1. Worker 1 puts
the second channel in the place of the first, and worker 2 leaves its port unused. -/
def bothWays : List Action :=
  [.online "b" 2, .online "a" 1, .call 1 "b" "k", .receive 1 false false, .answer 0 true, .call 2 "a" "k",
    .receive 2 false false, .answer 0 true, .next 2, .next 2, .next 1, .next 1]

/-- Then worker 2 reloads. -/
def reloadedBothWays : List Action :=
  bothWays ++ [.reload 2, .receive 2 false false, .next 1, .next 1]

theorem dropped_channel_stays_open :
    ¬ Revoked (run reloadedBothWays State.fresh) ∧
      (run reloadedBothWays State.fresh).channelRegistry = [] ∧
      (run reloadedBothWays State.fresh).inbox 1 = [] ∧ (run reloadedBothWays State.fresh).inbox 2 = [] ∧
      verdict (run reloadedBothWays State.fresh) ⟨0, .callee, "b", none⟩ = .run := by
  refine ⟨?_, by decide, by decide, by decide, by decide⟩
  intro revoked
  have dropped : Dropped (run reloadedBothWays State.fresh) 0 := by
    have forgotten : (run reloadedBothWays State.fresh).channelRegistry = [] := by decide
    simp [Dropped, forgotten]
  apply revoked 0 (by decide) dropped _ .caller
  · exact ⟨by decide, by decide⟩
  · intro side other
    have first : (run reloadedBothWays State.fresh).inbox 1 = [] := by decide
    have second : (run reloadedBothWays State.fresh).inbox 2 = [] := by decide
    cases side with
    | caller =>
        rw [show (run reloadedBothWays State.fresh).owner ⟨0, .caller⟩ = 1 by decide, first]
        exact List.not_mem_nil
    | callee =>
        rw [show (run reloadedBothWays State.fresh).owner ⟨0, .callee⟩ = 2 by decide, second]
        exact List.not_mem_nil

end Revocation

end Countinghouse.PeerRevocation
