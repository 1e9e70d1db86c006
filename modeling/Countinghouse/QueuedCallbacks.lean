import Countinghouse.WaitingRequests

/-!
The main thread's messages to its workers, and the callbacks that wait for their replies: what
is posted, stored, called and answered when a worker ends keeps what holds of the requests.
-/

namespace Countinghouse.QueuedCallbacks

open PlainObject MainThread WaitingRequests

/-! When a callback takes what it is called with. -/
section Condition

variable (host : Host) (s : State)

/-- The session of a hop still has to answer its worker. -/
def answers (hop : Hop) : Bool :=
  (s.sessions.any fun live => live.number == hop.number) && (s.workers hop.caller).ended.isNone

/-- The error of a reply to a hop has a text that can be posted, and so have its data. -/
def hopMeets (hop : Hop) (err : Option Failure) (data : Value) : Prop :=
  match err with
  | some err =>
      let code := if err.code.isNull then err.message else err.code
      ∃ message, getErrorMessage host code = some message ∧
        (answers s hop = true → message.clones = true ∧ code.clones = true ∧ data.clones = true)
  | none =>
      if host.ci then
        (encodeLegacyTool hop.deviceID hop.serviceID hop.actionName).isSome = true ∧
          (hop.billingKey.isNull = false → host.meteringThrows hop.billingKey = false)
      else answers s hop = true → data.clones = true

def callbackMeets (callback : Callback) (err : Option Failure) (data : Value) : Prop :=
  match callback with
  | .client completes => completes err data = true
  | .allow .. => ∀ failure, err = some failure → failure.message.clones = true ∧ failure.code.clones = true
  | .hop hop => hopMeets host s hop err data

end Condition

/-! Messages of the main thread. -/
section Sending

variable {host : Host} {s : State}

/-- Nothing is thrown and nothing but messages is left. -/
def Calm (s : State) (ran : Ran) : Prop := ran.threw = false ∧ Quiet s ran.state

theorem calm_returns (s : State) : Calm s (returns s) := ⟨rfl, quiet_refl s⟩

theorem Calm.andThen {ran : Ran} (calm : Calm s ran) {next : State → Ran} (later : Calm ran.state (next ran.state)) :
    Calm s (ran.andThen next) := by
  simp only [Ran.andThen, calm.1, Bool.false_eq_true, if_false]
  exact ⟨later.1, calm.2.trans later.2⟩

theorem post_calm (worker : WorkerId) (message : Post) (clones : message.clones = true)
    (routed : Routed s.registered (worker, message)) :
    Calm s (postMessage s worker message) ∧ (worker, message) ∈ (postMessage s worker message).state.posted := by
  simp only [postMessage, clones, if_true, returns]
  refine ⟨⟨rfl, ⟨rfl, rfl, rfl, rfl, rfl, rfl, rfl, rfl, fun _ => Or.inl, fun _ => Or.inl, fun _ => Or.inl,
    [(worker, message)], rfl, ?_⟩⟩, by simp⟩
  intro sent member
  obtain rfl := List.mem_singleton.mp member
  exact routed

theorem sendReply_calm (worker : WorkerId) (message : Post)
    (clones : (s.workers worker).ended = none → message.clones = true)
    (routed : Routed s.registered (worker, message)) :
    Calm s (sendReply s worker message) ∧
      ((s.workers worker).ended.isSome = true ∨ (worker, message) ∈ (sendReply s worker message).state.posted) := by
  cases ended : (s.workers worker).ended with
  | some err =>
      simp only [sendReply, ended, Option.isSome_some, if_true]
      exact ⟨calm_returns s, Or.inl trivial⟩
  | none =>
      simp only [sendReply, ended, Option.isSome_none, Bool.false_eq_true, if_false]
      obtain ⟨calm, sent⟩ := post_calm worker message (clones ended) routed
      exact ⟨calm, Or.inr sent⟩

/-- A reply to a hop with an error refuses it. -/
theorem refusal_done {hop : Hop} {key : String} {errMsg errCode data : Value} {after : State}
    (present : errMsg.isNull = false) (grows : Grows s after)
    (told : (s.workers hop.caller).ended.isSome = true ∨
      (hop.caller, Post.invokeReply hop.number hop.msgID errMsg errCode data) ∈ after.posted) :
    Done after hop.number ⟨.hop, hop.caller, key⟩ := by
  rcases told with ended | sent
  · exact Or.inr (Or.inr (grows.ended _ ended))
  · exact Or.inr (Or.inl ⟨_, _, _, _, present, sent⟩)

theorem reply_calm (hop : Hop) (errMsg errCode data : Value)
    (clones : (s.workers hop.caller).ended = none →
      hop.msgID.clones = true ∧ errMsg.clones = true ∧ errCode.clones = true ∧ data.clones = true) :
    Calm s (sendReply s hop.caller (.invokeReply hop.number hop.msgID errMsg errCode data)) ∧
      ((s.workers hop.caller).ended.isSome = true ∨
        (hop.caller, Post.invokeReply hop.number hop.msgID errMsg errCode data) ∈
          (sendReply s hop.caller (.invokeReply hop.number hop.msgID errMsg errCode data)).state.posted) := by
  apply sendReply_calm
  · intro live
    obtain ⟨id, message, code, payload⟩ := clones live
    simp [Post.clones, id, message, code, payload]
  · trivial

theorem localCB_calm {hop : Hop} (err : Option Failure) {data : Value} (id : hop.msgID.clones = true)
    (clones : (s.workers hop.caller).ended = none → data.clones = true ∧
      ∀ failure, err = some failure → failure.message.clones = true ∧ failure.code.clones = true) :
    Calm s (localCB s hop err data) := by
  cases err with
  | none => exact (reply_calm hop _ _ data fun live => ⟨id, rfl, rfl, (clones live).1⟩).1
  | some failure =>
      apply (reply_calm hop _ _ data _).1
      intro live
      obtain ⟨payload, error⟩ := clones live
      obtain ⟨message, code⟩ := error failure rfl
      refine ⟨id, message, ?_, payload⟩
      split
      · rfl
      · exact code

theorem sessionCallback_calm {hop : Hop} {err : Option Failure} {data : Value} (id : hop.msgID.clones = true)
    (clones : answers s hop = true → data.clones = true ∧
      ∀ failure, err = some failure → failure.message.clones = true ∧ failure.code.clones = true) :
    Calm s (sessionCallback s hop err data) := by
  unfold sessionCallback
  split
  next live =>
    have calm := localCB_calm (s := { s with sessions := s.sessions.filter fun open' => open'.number != hop.number })
      err id fun running => clones (by
        have running : (s.workers hop.caller).ended = none := running
        simp [answers, live, running])
    refine ⟨calm.1, { calm.2 with sessions := fun hop member => ?_ }⟩
    exact (calm.2.sessions hop member).imp_left fun there => (List.mem_filter.mp there).1
  next => exact calm_returns s

theorem hopAnswered_calm {hop : Hop} {err : Option Failure} {data : Value} (id : hop.msgID.clones = true)
    (meets : hopMeets host s hop err data) : Calm s (hopAnswered host s hop err data) := by
  cases err with
  | some failure =>
      obtain ⟨message, text, clones⟩ := meets
      simp only [hopAnswered, text]
      apply sessionCallback_calm id
      intro live
      obtain ⟨fine, code, payload⟩ := clones live
      refine ⟨payload, fun failure same => ?_⟩
      cases same
      exact ⟨fine, code⟩
  | none =>
      simp only [hopMeets] at meets
      simp only [hopAnswered]
      cases ci : host.ci with
      | false =>
          simp only [ci, Bool.false_eq_true, if_false] at meets
          simp only [Bool.not_false, if_true]
          exact sessionCallback_calm id fun live => ⟨meets live, by simp⟩
      | true =>
          simp only [ci, if_true] at meets
          obtain ⟨named, metered⟩ := meets
          obtain ⟨tool, encoded⟩ := Option.isSome_iff_exists.mp named
          simp only [Bool.not_true, Bool.false_eq_true, if_false, encoded]
          split
          · apply sessionCallback_calm id
            intro _
            refine ⟨rfl, fun failure same => ?_⟩
            cases same
            exact ⟨rfl, rfl⟩
          · rename_i billed
            simp only [metered (by simpa using billed), Bool.false_eq_true, if_false]
            refine ⟨rfl, { quiet_refl s with metering := fun entry member => ?_ }⟩
            rcases List.mem_append.mp member with old | new
            · exact Or.inl old
            · obtain rfl := List.mem_singleton.mp new
              exact Or.inr id

/-- A callback posts its answer. -/
theorem runCallback_calm {callback : Callback} {err : Option Failure} {data : Value} (fits : CallbackFits s callback)
    (meets : callbackMeets host s callback err data) :
    Calm s (runCallback host s callback err data) ∧
      ∀ number request, Awaits number callback → s.requests[number]? = some request →
        Done (runCallback host s callback err data).state number request := by
  cases callback with
  | client completes =>
      simp only [callbackMeets] at meets
      simp only [runCallback, meets, if_true]
      exact ⟨calm_returns s, fun _ _ awaits => awaits.elim⟩
  | hop hop => exact ⟨hopAnswered_calm fits meets, fun _ _ awaits => awaits.elim⟩
  | allow own caller callee targetDeviceID =>
      obtain ⟨posed, known⟩ := fits
      cases err with
      | some failure =>
          obtain ⟨message, code⟩ := meets failure rfl
          obtain ⟨calm, sent⟩ := post_calm (s := s) caller
            (.deny (some own) (.string targetDeviceID) failure.message failure.code)
            (by simp [Post.clones, message, code]) trivial
          refine ⟨calm, fun number request awaits found => ?_⟩
          obtain rfl : own = number := awaits
          obtain rfl := Option.some.inj (found.symm.trans posed)
          exact Or.inl ⟨_, _, _, sent⟩
      | none =>
          obtain ⟨calm, sent⟩ := post_calm (s := s) caller (.grant own targetDeviceID callee) rfl known
          refine ⟨calm, fun number request awaits found => ?_⟩
          obtain rfl : own = number := awaits
          obtain rfl := Option.some.inj (found.symm.trans posed)
          exact Or.inr ⟨callee, calm.2.grows.registered _ known, sent⟩

end Sending

/-! Callbacks. -/
section Callbacks

variable {host : Host} {s : State} {due : Option Nat} {queue : Queues}

/-- One entry of a table without repeated keys is all that is lost with its key. -/
theorem deleteKey_or {table : Table Callback} {key : String} {callback : Callback}
    (nodup : (table.map Prod.fst).Nodup) (member : (key, callback) ∈ table) {entry : String × Callback}
    (there : entry ∈ table) : entry ∈ deleteKey table key ∨ entry.2 = callback := by
  by_cases same : entry.1 = key
  · right
    have found := (lookup_iff_mem nodup key callback).mpr member
    have foundToo := (lookup_iff_mem nodup key entry.2).mpr (by rw [← same]; exact there)
    exact Option.some.inj (foundToo.symm.trans found)
  · exact Or.inl (mem_deleteKey.mpr ⟨there, same⟩)

/-- The queues once a callback has been called. -/
def called (queue : Queues) (worker : WorkerId) (key : String) : Queues :=
  Function.update queue worker (deleteKey (queue worker) key)

theorem called_mem {worker other : WorkerId} {key : String} {entry : String × Callback}
    (member : entry ∈ called queue worker key other) :
    entry ∈ queue other ∧ (other, entry.1) ≠ (worker, key) := by
  by_cases same : other = worker
  · subst same
    simp only [called, Function.update_self] at member
    obtain ⟨there, differs⟩ := mem_deleteKey.mp member
    exact ⟨there, by simpa using differs⟩
  · simp only [called, Function.update_of_ne same] at member
    exact ⟨member, by simp [same]⟩

theorem called_nodup {worker : WorkerId} (key : String) (nodup : ∀ other, ((queue other).map Prod.fst).Nodup)
    (other : WorkerId) : ((called queue worker key other).map Prod.fst).Nodup := by
  by_cases same : other = worker
  · subst same
    simp only [called, Function.update_self]
    exact (nodup other).sublist ((List.filter_sublist).map Prod.fst)
  · simp only [called, Function.update_of_ne same]
    exact nodup other

theorem callStored_inv (inv : Inv due queue s) {worker : WorkerId} {key : String} {callback : Callback}
    (member : (key, callback) ∈ queue worker) {err : Option Failure} {data : Value}
    (meets : callbackMeets host s callback err data) :
    (callStored host s worker key callback err data).threw = false ∧
      Inv due (called queue worker key) (callStored host s worker key callback err data).state ∧
      (callStored host s worker key callback err data).state.workers = s.workers := by
  obtain ⟨stored, uncalled, fits⟩ := inv.fits.held worker (key, callback) member
  let noted := { s with called := s.called ++ [(worker, key)] }
  change CallbackFits s callback at fits
  change (runCallback host noted callback err data).threw = false ∧
    Inv due (called queue worker key) (runCallback host noted callback err data).state ∧
    (runCallback host noted callback err data).state.workers = s.workers
  obtain ⟨calm, done⟩ := runCallback_calm (s := noted) fits meets
  have base : Base noted :=
    ⟨inv.base.devices, inv.base.channels, inv.base.supervisor, inv.base.asks, inv.base.sessions, inv.base.metering, inv.base.ended,
      inv.base.routed⟩
  have queues : QueuesFit (called queue worker key) noted := by
    refine ⟨called_nodup key inv.fits.nodup, ?_, inv.fits.ids, ?_, ?_⟩
    · intro other entry there
      obtain ⟨held, differs⟩ := called_mem there
      obtain ⟨storedToo, uncalledToo, fitsToo⟩ := inv.fits.held other entry held
      refine ⟨storedToo, ?_, fitsToo⟩
      simp only [noted, List.mem_append, List.mem_singleton, not_or]
      exact ⟨uncalledToo, differs⟩
    · exact List.nodup_append.mpr ⟨inv.fits.once, by simp, fun call there other same => by
        obtain rfl := List.mem_singleton.mp same
        rintro rfl
        exact uncalled there⟩
    · intro call there
      rcases List.mem_append.mp there with old | new
      · exact inv.fits.calledStored call old
      · obtain rfl := List.mem_singleton.mp new
        exact stored
  refine ⟨calm.1, ⟨base.quiet calm.2, queues.quiet calm.2, ?_⟩, calm.2.workers⟩
  intro number request other posed
  have posedBefore : s.requests[number]? = some request := by
    rw [calm.2.requests] at posed
    exact posed
  rcases inv.settled number request other posedBefore with (asked | ⟨holder, entry, there, awaits⟩) | settled
  · left
    left
    rw [calm.2.asks]
    exact asked
  · by_cases same : holder = worker
    · subst same
      rcases deleteKey_or (inv.fits.nodup holder) member there with kept | this
      · exact Or.inl (Or.inr ⟨holder, entry, by simpa [called] using kept, awaits⟩)
      · rw [this] at awaits
        exact Or.inr (done number request awaits posedBefore)
    · refine Or.inl (Or.inr ⟨holder, entry, ?_, awaits⟩)
      simpa only [called, Function.update_of_ne same] using there
  · exact Or.inr (settled.grows ⟨calm.2.grows.posted, calm.2.grows.registered, calm.2.grows.ended⟩)

end Callbacks

end Countinghouse.QueuedCallbacks
