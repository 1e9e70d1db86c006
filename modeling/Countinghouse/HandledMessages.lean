import Countinghouse.BrokeredRequests

/-!
Messages of workers that ask for no peer: a device that is online, queries for one, log entries,
redis commands, jobs, metering, and reports of violations. Each handler says when it takes what
the message carries.
-/

namespace Countinghouse.HandledMessages

open PlainObject MainThread WaitingRequests QueuedCallbacks BrokeredRequests

/-! When a handler takes what it is given. -/
section Condition

variable (host : Host) (s : State)

/-- A reply to the worker under the id can be posted. -/
def Answerable (worker : WorkerId) (msgID : Value) : Prop :=
  (s.workers worker).ended = none → msgID.clones = true

/-- The handler of deviceonline finds what it reads, and those who wait for the device can be told. -/
def onlineMeets (data : Value) (worker : WorkerId) : Prop :=
  let deviceID := data.read "deviceID"
  let spec := data.read "spec"
  let modulePath := (((s.workers worker).hostModulePath).map Value.string).getD (data.read "modulePath")
  data.isNull = false ∧
    ∃ key, deviceID.text = some key ∧
      if !deviceID.isNull && conflicts s (get s.deviceMap key) modulePath then
        (conflictText s (get s.deviceMap key) spec).isSome = true
      else
        (host.debug = true ∨
            spec.isNull = false ∧ ∀ device ∈ (s.workers worker).deviceList, device.1 ≠ key → device.2.isNull = false) ∧
          ∀ queries, s.allDevicesLoaded = false → s.notifyDeviceLoad.lookup key = some queries →
            ∀ query ∈ queries, (s.workers query.1).ended = none → query.2.clones = true ∧ spec.clones = true

def progressMeets (data : Value) : Prop :=
  data.isNull = false ∧ (data.read "jobID").text.isSome = true

/-- The id has a text, and JSON when there is no such device; no query is kept under a member of `Object.prototype`. -/
def queryMeets (deviceID msgID : Value) (worker : WorkerId) : Prop :=
  ∃ key, deviceID.text = some key ∧
    match get s.deviceMap key with
    | .own callee =>
        (s.workers worker).ended = none →
          msgID.clones = true ∧ (slotValue key (get (s.workers callee).deviceList key)).clones = true
    | _ =>
        (missingDeviceError host s deviceID key).isSome = true ∧
          if s.allDevicesLoaded then Answerable s worker msgID
          else s.notifyDeviceLoad.lookup key = none → key ∉ inheritedNames

def logMeets (data : Value) : Prop :=
  let deviceID := data.read "deviceID"
  data.isNull = false ∧
    (deviceID.isNull = false → deviceID.is "" = false →
      ∃ entry, logEntry host (data.read "data") = some entry ∧
        (host.debug = false →
          ∃ key, deviceID.text = some key ∧
            host.redisThrows "multi" [.string key, entry, data.read "timestamp"] = false))

def redisMeets (data id : Value) (worker : WorkerId) : Prop :=
  data.isNull = false ∧
    ∃ name, (data.read "op").text = some name ∧
      if isCommand host (data.read "op") then host.redisThrows name [data.read "data"] = false
      else Answerable s worker id

def jobInfoMeets (data id : Value) (worker : WorkerId) : Prop :=
  data.isNull = false ∧
    ∃ runs, runsJob (s.workers worker) (data.read "jobID") = some runs ∧ (runs = false → Answerable s worker id)

def meteringMeets (data id : Value) (worker : WorkerId) : Prop :=
  if data.isNull || !host.ci then Answerable s worker id
  else
    (encodeLegacyTool (data.read "deviceID") (data.read "serviceID") (data.read "actionName")).isSome = true ∧
      host.meteringThrows (data.read "callerModule") = false

/-- A report that is still counted names its rule and target. -/
def violationMeets (data : Value) (worker : WorkerId) : Prop :=
  (s.workers worker).violationReports < MAX_VIOLATION_REPORTS →
    data.isNull = false ∧
      ((data.read "rule").is "suppressed" = true ∨
        (data.read "rule").text.isSome = true ∧ (data.read "target").text.isSome = true)

end Condition

/-! The handlers. -/
section Handlers

variable {host : Host} {s : State}

theorem answerQueries_calm {reply : Value → Post} {queries : List (WorkerId × Value)}
    (routed : ∀ registered worker msgID, Routed registered (worker, reply msgID))
    (clones : ∀ query ∈ queries, (s.workers query.1).ended = none → (reply query.2).clones = true) :
    Calm s (answerQueries reply s queries) := by
  induction queries generalizing s with
  | nil => exact calm_returns s
  | cons query rest ih =>
      obtain ⟨worker, msgID⟩ := query
      obtain ⟨first, -⟩ := sendReply_calm (s := s) worker (reply msgID) (clones _ List.mem_cons_self) (routed _ _ _)
      refine first.andThen (ih fun other member => ?_)
      rw [first.2.workers]
      exact clones other (List.mem_cons_of_mem _ member)

/-- The ids that come online are no members of `Object.prototype`. -/
theorem online_plain (inv : Inv none (queues s) s) {deviceID modulePath : Value} {key : String}
    (text : deviceID.text = some key)
    (free : (!deviceID.isNull && conflicts s (get s.deviceMap key) modulePath) = false) : key ∉ inheritedNames := by
  cases given : deviceID.isNull with
  | true =>
      have named : key = "undefined" ∨ key = "null" := by
        cases deviceID <;> simp_all [Value.isNull, Value.text]
      rcases named with rfl | rfl <;> decide
  | false =>
      simp only [given, Bool.not_false, Bool.true_and] at free
      cases held : get s.deviceMap key with
      | own worker => exact (inv.base.devices _ (lookup_mem (own_lookup held))).2
      | inherited => simp [held, conflicts] at free
      | undefined =>
          intro known
          rw [get_inherited (undefined_lookup held) known] at held
          cases held

theorem register_inv (inv : Inv none (queues s) s) (worker : WorkerId) (modulePath deviceID spec : Value) {key : String}
    (plain : key ∉ inheritedNames) :
    Inv none (queues (register s worker modulePath deviceID spec key))
      (register s worker modulePath deviceID spec key) := by
  have online := edited_inv inv worker
    (fun wm => { wm with modulePath := modulePath, deviceList := setKey wm.deviceList key spec }) rfl rfl rfl
  unfold register
  split
  next => exact online
  next =>
    refine registered_inv online (fun _ => rfl) (fun _ => rfl) (fun _ => List.mem_append_left _) ?_
      online.base.channels online.base.supervisor ⟨rfl, rfl, rfl, rfl, rfl, rfl, rfl⟩
    intro entry member
    rcases setKey_mem member with old | new
    · obtain ⟨known, own⟩ := inv.base.devices entry old
      exact ⟨List.mem_append_left _ known, own⟩
    · subst new
      exact ⟨List.mem_append_right _ (List.mem_singleton_self _), plain⟩

theorem register_worker (s : State) (worker : WorkerId) (modulePath deviceID spec : Value) (key : String) :
    (register s worker modulePath deviceID spec key).workers =
      Function.update s.workers worker
        { s.workers worker with
          modulePath := modulePath, deviceList := setKey (s.workers worker).deviceList key spec } := by
  unfold register State.withWorker
  split <;> rfl

theorem register_rest (s : State) (worker : WorkerId) (modulePath deviceID spec : Value) (key : String) :
    (register s worker modulePath deviceID spec key).notifyDeviceLoad = s.notifyDeviceLoad ∧
      ∀ other, ((register s worker modulePath deviceID spec key).workers other).ended = (s.workers other).ended := by
  constructor
  · unfold register State.withWorker
    split <;> rfl
  · intro other
    rw [register_worker]
    by_cases same : other = worker
    · subst same
      simp
    · simp [same]

theorem notifyLoaded_calm {key : String} {spec : Value} (plain : key ∉ inheritedNames)
    (told : ∀ queries, s.notifyDeviceLoad.lookup key = some queries →
      ∀ query ∈ queries, (s.workers query.1).ended = none → query.2.clones = true ∧ spec.clones = true) :
    Calm s (notifyLoaded s key spec) := by
  unfold notifyLoaded
  split
  next => exact calm_returns s
  next found => exact absurd (inherited_mem found) plain
  next queries found =>
    have calm : Calm s (answerQueries (fun msgID => .queryReply msgID .null spec) s queries) := by
      refine answerQueries_calm (fun _ _ _ => trivial) fun query member live => ?_
      obtain ⟨msgID, spec⟩ := told queries (own_lookup found) query member live
      simp [Post.clones, msgID, spec]
    exact calm.andThen ⟨rfl, { quiet_refl _ with }⟩

theorem onDeviceOnline_keeps (inv : Inv none (queues s) s) {data : Value} {worker : WorkerId}
    (meets : onlineMeets host s data worker) : Keeps (onDeviceOnline host s data worker) := by
  obtain ⟨present, key, text, meets⟩ := meets
  simp only [onDeviceOnline, present, Bool.false_eq_true, if_false, text]
  split
  next conflict =>
    simp only [conflict, if_true] at meets
    simp only [meets, if_true]
    exact ⟨rfl, inv⟩
  next free =>
    simp only [free, Bool.false_eq_true, if_false] at meets
    obtain ⟨specs, told⟩ := meets
    have plain := online_plain inv text (by simpa using free)
    have online := register_inv inv worker
      ((((s.workers worker).hostModulePath).map Value.string).getD (data.read "modulePath")) (data.read "deviceID")
      (data.read "spec") plain
    obtain ⟨waiting, ended⟩ := register_rest s worker
      ((((s.workers worker).hostModulePath).map Value.string).getD (data.read "modulePath")) (data.read "deviceID")
      (data.read "spec") key
    have limited : limiterThrows host ((register s worker
        ((((s.workers worker).hostModulePath).map Value.string).getD (data.read "modulePath")) (data.read "deviceID")
        (data.read "spec") key).workers worker) = false := by
      rcases specs with debug | ⟨given, others⟩
      · simp [limiterThrows, debug]
      · have made : ∀ device ∈ setKey (s.workers worker).deviceList key (data.read "spec"), device.2.isNull = false := by
          intro device member
          rcases setKey_mem_or member with rfl | ⟨old, differs⟩
          · exact given
          · exact others device old differs
        rw [register_worker, Function.update_self, limiterThrows, List.any_eq_false.mpr (by simpa using made),
          Bool.and_false]
    simp only [limited, Bool.false_eq_true, if_false]
    split
    next => exact ⟨rfl, online⟩
    next discovering =>
      refine keeps_calm online (notifyLoaded_calm plain fun queries found query member live => ?_)
      rw [waiting] at found
      exact told queries (by simpa using discovering) found query member (by rw [← ended]; exact live)

theorem onJobProgress_keeps (inv : Inv none (queues s) s) {data : Value} {worker : WorkerId}
    (meets : progressMeets data) : Keeps (onJobProgress s data worker) := by
  obtain ⟨present, named⟩ := meets
  obtain ⟨id, text⟩ := Option.isSome_iff_exists.mp named
  simp only [onJobProgress, present, Bool.false_eq_true, if_false]
  split
  next unread =>
    unfold runsJob at unread
    split at unread
    · cases unread
    · simp [text] at unread
  next => exact ⟨rfl, inv⟩
  next =>
    simp only [named, if_true]
    exact ⟨rfl, inv⟩

theorem keeps_reply (inv : Inv none (queues s) s) {worker : WorkerId} {message : Post}
    (clones : (s.workers worker).ended = none → message.clones = true)
    (routed : Routed s.registered (worker, message)) : Keeps (sendReply s worker message) :=
  keeps_calm inv (sendReply_calm worker message clones routed).1

/-- A reply with a text as its error. -/
theorem keeps_service (inv : Inv none (queues s) s) {worker : WorkerId} {id : Value} (answers : Answerable s worker id)
    (service : Service) (errMsg : String) {result : Value} (nothing : result.isNull = true) :
    Keeps (sendReply s worker (.serviceReply service id (.string errMsg) result)) := by
  refine keeps_reply inv (fun live => ?_) trivial
  have clones : result.clones = true := by
    cases result <;> first | rfl | cases nothing
  simp [Post.clones, answers live, clones]

theorem keeps_call (inv : Inv none (queues s) s) (service : Service) (worker : WorkerId) (id : Value) :
    Keeps (returns (s.call service worker id)) :=
  keeps_calm inv ⟨rfl, { quiet_refl s with }⟩

theorem missing_clones (inv : Inv none (queues s) s) {deviceID : Value} {key : String} {supervised : Bool}
    {missing : Failure} (found : missingDeviceError host s deviceID key = some (supervised, missing)) :
    missing.message.clones = true := by
  unfold missingDeviceError at found
  split at found
  next own known =>
    cases found
    exact (inv.base.supervisor _ _ known).1
  next =>
    split at found
    · cases found
      rfl
    · obtain ⟨_, -, made⟩ := Option.map_eq_some_iff.mp found
      cases made
      rfl

theorem saveQuery_keeps (inv : Inv none (queues s) s) {key : String} (query : WorkerId × Value)
    (open' : s.notifyDeviceLoad.lookup key = none → key ∉ inheritedNames) : Keeps (saveQuery s key query) := by
  unfold saveQuery
  split
  next => exact keeps_calm inv ⟨rfl, { quiet_refl s with }⟩
  next => exact keeps_calm inv ⟨rfl, { quiet_refl s with }⟩
  next found =>
    have missing : s.notifyDeviceLoad.lookup key = none := by
      cases there : s.notifyDeviceLoad.lookup key with
      | none => rfl
      | some queries =>
          rw [get_own there] at found
          cases found
    exact absurd (inherited_mem found) (open' missing)

/-- A query for a device that is not there is answered or kept. -/
theorem missing_keeps (inv : Inv none (queues s) s) {deviceID msgID : Value} {worker : WorkerId} {key : String}
    (told : (missingDeviceError host s deviceID key).isSome = true ∧
      if s.allDevicesLoaded then Answerable s worker msgID
      else s.notifyDeviceLoad.lookup key = none → key ∉ inheritedNames) :
    ∃ made, missingDeviceError host s deviceID key = some made ∧
      Keeps (if s.allDevicesLoaded then sendReply s worker (.queryReply msgID made.2.message .null)
        else saveQuery s key (worker, msgID)) := by
  obtain ⟨made, told⟩ := told
  obtain ⟨⟨supervised, missing⟩, found⟩ := Option.isSome_iff_exists.mp made
  refine ⟨_, found, ?_⟩
  split
  next loaded =>
    simp only [loaded, if_true] at told
    refine keeps_reply inv (fun live => ?_) trivial
    simp [Post.clones, told live, missing_clones inv found]
  next discovering =>
    simp only [discovering, Bool.false_eq_true, if_false] at told
    exact saveQuery_keeps inv _ told

theorem queryDeviceForChild_keeps (inv : Inv none (queues s) s) {deviceID msgID : Value} {worker : WorkerId}
    (meets : queryMeets host s deviceID msgID worker) : Keeps (queryDeviceForChild host s deviceID msgID worker) := by
  obtain ⟨key, text, meets⟩ := meets
  simp only [queryDeviceForChild, text]
  cases held : get s.deviceMap key with
  | own callee =>
      simp only [held] at meets
      refine keeps_reply inv (fun live => ?_) trivial
      obtain ⟨id, spec⟩ := meets live
      simp [Post.clones, id, spec]
  | inherited =>
      simp only [held] at meets
      obtain ⟨made, found, kept⟩ := missing_keeps inv meets
      simpa only [found] using kept
  | undefined =>
      simp only [held] at meets
      obtain ⟨made, found, kept⟩ := missing_keeps inv meets
      simpa only [found] using kept

theorem onDeviceLog_keeps (inv : Inv none (queues s) s) {data : Value} (id : Value) {worker : WorkerId}
    (meets : logMeets host data) : Keeps (onDeviceLog host s data id worker) := by
  obtain ⟨present, meets⟩ := meets
  simp only [onDeviceLog, present, Bool.false_eq_true, if_false]
  split
  next => exact ⟨rfl, inv⟩
  next named =>
    simp only [Bool.or_eq_true, not_or, Bool.not_eq_true] at named
    obtain ⟨entry, shown, written⟩ := meets named.1 named.2
    simp only [shown]
    split
    next => exact ⟨rfl, inv⟩
    next stored =>
      obtain ⟨key, text, takes⟩ := written (by simpa using stored)
      simp only [text, takes, Bool.false_eq_true, if_false]
      exact keeps_call inv _ _ _

theorem onRedisCommand_keeps (inv : Inv none (queues s) s) {data id : Value} {worker : WorkerId}
    (meets : redisMeets host s data id worker) : Keeps (onRedisCommand host s data id worker) := by
  obtain ⟨present, name, text, meets⟩ := meets
  simp only [onRedisCommand, present, Bool.false_eq_true, if_false, text]
  split
  next known =>
    simp only [known, if_true] at meets
    simp only [meets, Bool.false_eq_true, if_false]
    exact keeps_call inv _ _ _
  next unknown =>
    simp only [unknown, Bool.false_eq_true, if_false] at meets
    exact keeps_service inv meets _ _ rfl

theorem onGetJobInfo_keeps (inv : Inv none (queues s) s) {data id : Value} {worker : WorkerId}
    (meets : jobInfoMeets s data id worker) : Keeps (onGetJobInfo s data id worker) := by
  obtain ⟨present, runs, known, meets⟩ := meets
  simp only [onGetJobInfo, present, Bool.false_eq_true, if_false, known]
  cases runs with
  | true => exact keeps_call inv _ _ _
  | false => exact keeps_service inv (meets rfl) _ _ rfl

theorem handleMeteringRequest_keeps (inv : Inv none (queues s) s) {data id : Value} {worker : WorkerId}
    (meets : meteringMeets host s data id worker) : Keeps (handleMeteringRequest host s data id worker) := by
  unfold meteringMeets at meets
  unfold handleMeteringRequest
  split
  next unavailable =>
    simp only [unavailable, if_true] at meets
    exact keeps_service inv meets _ _ rfl
  next available =>
    simp only [available, Bool.false_eq_true, if_false] at meets
    obtain ⟨named, takes⟩ := meets
    obtain ⟨tool, encoded⟩ := Option.isSome_iff_exists.mp named
    simp only [encoded, takes, Bool.false_eq_true, if_false]
    exact keeps_call inv _ _ _

theorem tellOthers_calm (worker : WorkerId) {pairs : List (WorkerId × Option WorkerId)}
    (channels : ∀ pair ∈ pairs, pair.2.isSome = true) : Calm s (tellOthers worker s pairs) := by
  induction pairs generalizing s with
  | nil => exact calm_returns s
  | cons pair rest ih =>
      obtain ⟨caller, callee⟩ := pair
      have later : ∀ {s : State}, Calm s (tellOthers worker s rest) :=
        ih fun pair member => channels pair (List.mem_cons_of_mem _ member)
      obtain ⟨other, rfl⟩ := Option.isSome_iff_exists.mp (channels _ List.mem_cons_self)
      simp only [tellOthers]
      split
      · split
        · exact later
        · exact (post_calm other (.invalidate (some worker)) rfl trivial).1.andThen later
      · split
        · exact (post_calm caller (.invalidate (some worker)) rfl trivial).1.andThen later
        · exact later

theorem invalidateWorker_keeps (inv : Inv none (queues s) s) (worker : WorkerId) : Keeps (invalidateWorker s worker) := by
  refine keeps_calm inv ((tellOthers_calm worker inv.base.channels).andThen ⟨rfl, ?_⟩)
  exact { quiet_refl _ with channels := fun pair member => Or.inl (List.mem_filter.mp member).1 }

theorem onSandboxViolation_keeps (inv : Inv none (queues s) s) {data : Value} (present : data.isNull = false)
    (named : (data.read "rule").is "suppressed" = true ∨
      (data.read "rule").text.isSome = true ∧ (data.read "target").text.isSome = true) :
    Keeps (onSandboxViolation s data) := by
  have same : onSandboxViolation s data = returns s := by
    simp only [onSandboxViolation, present, Bool.false_eq_true, if_false]
    rcases named with suppressed | ⟨rule, target⟩
    · have notUses : (data.read "rule").is "uses" = false := by
        cases read : data.read "rule" <;> simp_all [Value.is]
      simp [suppressed, notUses]
    · simp [rule, target]
  rw [same]
  exact ⟨rfl, inv⟩

end Handlers

end Countinghouse.HandledMessages
