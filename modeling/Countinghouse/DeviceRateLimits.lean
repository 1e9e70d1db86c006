import Mathlib.Data.List.Basic
import Countinghouse.JsonValues
import Countinghouse.PlainObject

/-!
The rate limits that devices declare: `createRateLimiterForDevice` and `onInvokeDeviceAction`
of lib/device-manager.js. The package rolling-rate-limiter keeps its windows in Redis, one
under each key; a key is the namespace of the limiter followed by the id of the call.
-/

namespace Countinghouse.DeviceRateLimits

open JsonValues PlainObject
open RedisMetering (Json)

/-! What rolling-rate-limiter does with one window. -/
section Package

/-- `call` is given the interval, `maxInInterval` and the time, and says whether any time is left to wait. -/
structure RollingRateLimiter (Window : Type) where
  fresh : Window
  call : Nat → Nat → Nat → Window → Bool × Window
  /-- When the calls were made that the window counts. -/
  counted : Window → List Nat

variable {Window : Type}

def recent (interval now : Nat) (times : List Nat) : List Nat := times.filter fun time => now < time + interval

/-- No more than `maxInInterval` calls within the interval, and a call that is allowed counts. A call that is refused
may count or not. -/
structure Sliding (limiter : RollingRateLimiter Window) : Prop where
  fresh : limiter.counted limiter.fresh = []
  limited : ∀ interval limit now window, (limiter.call interval limit now window).1 = true ↔
    limit ≤ (recent interval now (limiter.counted window)).length
  allowed : ∀ interval limit now window, (limiter.call interval limit now window).1 = false →
    ∀ later, now ≤ later → recent interval later (limiter.counted (limiter.call interval limit now window).2) =
      recent interval later (now :: limiter.counted window)

end Package

/-! The limiters, and a call of an action. -/
section Calls

inductive CdifDevice where
  | chDevice (online : Bool) (rateLimit : Option Json)
  /-- A worker, with the `rateLimit` of each device in its `deviceList`. -/
  | workerMessage (online : Bool) (deviceList : Table (Option Json))

structure DeviceManager where
  debug : Bool
  workerThread : Bool
  deviceMap : Table CdifDevice

def validLimit (rateLimit : Option Json) : Option Nat := rateLimit.bind positiveInteger

/-- `createRateLimiterForDevice` of a CHDevice -/
def rateLimiter (debug : Bool) (rateLimit : Option Json) : Option Nat := if debug then none else validLimit rateLimit

def addLimiter (limiters : Table Nat) (device : String × Option Json) : Table Nat :=
  match validLimit device.2 with
  | none => limiters
  | some limit => setKey limiters device.1 limit

/-- `createRateLimiterForDevice` of a WorkerMessage -/
def rateLimiters (debug : Bool) (deviceList : Table (Option Json)) : Table Nat :=
  if debug then [] else deviceList.foldl addLimiter []

/-- The errors of `ensureDeviceState`. -/
inductive Unusable where
  /-- `missingDeviceError`, whose code is for the supervisor to say -/
  | missing
  | DEVICE_OFFLINE
  deriving DecidableEq

/-- `ensureDeviceState`; nothing when `deviceMap[deviceID]` is a member of `Object.prototype`. -/
def ensureDeviceState (manager : DeviceManager) (deviceID : String) : Except Unusable (Option CdifDevice) :=
  match get manager.deviceMap deviceID with
  | .undefined => .error .missing
  | .inherited => if manager.workerThread then .error .missing else .ok none
  | .own (.chDevice online rateLimit) =>
      if manager.workerThread then .error .missing
      else if online then .ok (some (.chDevice online rateLimit))
      else .error .DEVICE_OFFLINE
  | .own (.workerMessage online deviceList) =>
      if online then .ok (some (.workerMessage online deviceList)) else .error .DEVICE_OFFLINE

/-- `cdifDevice.rateLimiter`, or `cdifDevice.rateLimiters[deviceID]` -/
def limiterOf (debug : Bool) (cdifDevice : CdifDevice) (deviceID : String) : Slot Nat :=
  match cdifDevice with
  | .chDevice _ rateLimit =>
      match rateLimiter debug rateLimit with
      | none => .undefined
      | some limit => .own limit
  | .workerMessage _ deviceList => get (rateLimiters debug deviceList) deviceID

/-- `namespace + id` -/
def windowKey (id : Option String) : String := "deviceRateLimiter" ++ id.getD "undefined"

/-- `this.deviceID`, with the DeviceManager for `this`: it has no such property. -/
def managerDeviceID : Option String := none

structure Call where
  deviceID : String
  time : Nat
  /-- The limiter's callback is given an error: Redis cannot be reached. -/
  failed : Bool
  deriving DecidableEq

inductive Outcome where
  | error (err : Unusable)
  | invoked
  /-- `DENY_DEVICE_ACCESS` -/
  | refused
  /-- A member of `Object.prototype` was called, or read, in place of a limiter. -/
  | lost
  deriving DecidableEq

abbrev Redis (Window : Type) := String → Window

variable {Window : Type} (limiter : RollingRateLimiter Window) (manager : DeviceManager)

/-- Both branches of `onInvokeDeviceAction` ask for the window of `this.deviceID`. -/
def askLimiter (redis : Redis Window) (maxInInterval : Nat) (call : Call) : Outcome × Redis Window :=
  if call.failed then (.invoked, redis)
  else
    let key := windowKey managerDeviceID
    let reply := limiter.call 1000 maxInInterval call.time (redis key)
    (if reply.1 then .refused else .invoked, fun other => if other = key then reply.2 else redis other)

def onInvokeDeviceAction (redis : Redis Window) (call : Call) : Outcome × Redis Window :=
  match ensureDeviceState manager call.deviceID with
  | .error err => (.error err, redis)
  | .ok none => (.lost, redis)
  | .ok (some cdifDevice) =>
      match limiterOf manager.debug cdifDevice call.deviceID with
      | .undefined => (.invoked, redis)
      | .inherited => (.lost, redis)
      | .own maxInInterval => askLimiter limiter redis maxInInterval call

/-- The calls in order, with what comes of each. -/
def run : List Call → Redis Window → List (Call × Outcome)
  | [], _ => []
  | call :: rest, redis =>
      let done := onInvokeDeviceAction limiter manager redis call
      (call, done.1) :: run rest done.2

def start : Redis Window := fun _ => limiter.fresh

end Calls

/-! The property, and when it holds. -/
section Independence

variable {Window : Type} (limiter : RollingRateLimiter Window) (manager : DeviceManager)

def callsTo (deviceID : String) (calls : List Call) : List Call := calls.filter fun call => call.deviceID = deviceID

def outcomesOf (deviceID : String) (done : List (Call × Outcome)) : List (Call × Outcome) :=
  done.filter fun entry => entry.1.deviceID = deviceID

/-- Runs with the same timed calls to the device come to the same for each of them. -/
def Independent (deviceID : String) : Prop :=
  ∀ calls others : List Call,
    (calls.map Call.time).Pairwise (· ≤ ·) → (others.map Call.time).Pairwise (· ≤ ·) →
      callsTo deviceID calls = callsTo deviceID others →
        outcomesOf deviceID (run limiter manager calls (start limiter)) =
          outcomesOf deviceID (run limiter manager others (start limiter))

/-- The device can be called, and has a limiter. -/
def LimitedTo (deviceID : String) (maxInInterval : Nat) : Prop :=
  ∃ cdifDevice, ensureDeviceState manager deviceID = .ok (some cdifDevice) ∧
    limiterOf manager.debug cdifDevice deviceID = .own maxInInterval

/-- The device has no limiter, or is the only one that has. -/
def Alone (deviceID : String) : Prop :=
  ∀ other limit otherLimit, LimitedTo manager deviceID limit → LimitedTo manager other otherLimit → other = deviceID

theorem valid_limit_pos {rateLimit : Option Json} {limit : Nat} (valid : validLimit rateLimit = some limit) : 0 < limit := by
  obtain ⟨value, _, is⟩ := Option.bind_eq_some_iff.mp valid
  exact positive_integer_pos is

theorem add_limiter_pos {limiters : Table Nat} (positive : ∀ entry ∈ limiters, 0 < entry.2)
    (device : String × Option Json) : ∀ entry ∈ addLimiter limiters device, 0 < entry.2 := by
  unfold addLimiter
  split
  · exact positive
  · rename_i limit valid
    intro entry member
    rcases setKey_mem member with old | rfl
    · exact positive entry old
    · exact valid_limit_pos valid

theorem rate_limiters_pos (debug : Bool) (deviceList : Table (Option Json)) :
    ∀ entry ∈ rateLimiters debug deviceList, 0 < entry.2 := by
  have each : ∀ limiters : Table Nat, (∀ entry ∈ limiters, 0 < entry.2) →
      ∀ entry ∈ deviceList.foldl addLimiter limiters, 0 < entry.2 := by
    induction deviceList with
    | nil => exact fun limiters positive => positive
    | cons device rest ih => exact fun limiters positive => ih _ (add_limiter_pos positive device)
  unfold rateLimiters
  split
  · exact fun entry none => nomatch none
  · exact each [] fun entry none => nomatch none

theorem limited_pos {deviceID : String} {limit : Nat} (limited : LimitedTo manager deviceID limit) : 0 < limit := by
  obtain ⟨cdifDevice, _, own⟩ := limited
  cases cdifDevice with
  | chDevice online rateLimit =>
      simp only [limiterOf, rateLimiter] at own
      split at own
      · cases own
      · rename_i valid
        cases own
        split at valid
        · cases valid
        · exact valid_limit_pos valid
  | workerMessage online deviceList => exact rate_limiters_pos manager.debug deviceList _ (lookup_mem (own_lookup own))

theorem invoke_limited {deviceID : String} {limit : Nat} (limited : LimitedTo manager deviceID limit)
    (redis : Redis Window) (time : Nat) (failed : Bool) :
    onInvokeDeviceAction limiter manager redis ⟨deviceID, time, failed⟩ =
      askLimiter limiter redis limit ⟨deviceID, time, failed⟩ := by
  obtain ⟨cdifDevice, usable, own⟩ := limited
  simp only [onInvokeDeviceAction, usable, own]

theorem invoke_unlimited (call : Call) (unlimited : ∀ limit, ¬ LimitedTo manager call.deviceID limit)
    (redis other : Redis Window) :
    (onInvokeDeviceAction limiter manager redis call).2 = redis ∧
      (onInvokeDeviceAction limiter manager redis call).1 = (onInvokeDeviceAction limiter manager other call).1 := by
  unfold onInvokeDeviceAction
  cases usable : ensureDeviceState manager call.deviceID with
  | error err => exact ⟨rfl, rfl⟩
  | ok found =>
      cases found with
      | none => exact ⟨rfl, rfl⟩
      | some cdifDevice =>
          dsimp only
          cases own : limiterOf manager.debug cdifDevice call.deviceID with
          | undefined => exact ⟨rfl, rfl⟩
          | inherited => exact ⟨rfl, rfl⟩
          | own limit => exact absurd ⟨cdifDevice, usable, own⟩ (unlimited limit)

/-- What comes of the calls to a device without a limiter does not depend on Redis at all. -/
theorem unlimited_outcomes {deviceID : String} (unlimited : ∀ limit, ¬ LimitedTo manager deviceID limit)
    (calls : List Call) (redis other : Redis Window) :
    outcomesOf deviceID (run limiter manager calls redis) = run limiter manager (callsTo deviceID calls) other := by
  induction calls generalizing redis other with
  | nil => rfl
  | cons call rest ih =>
      by_cases same : call.deviceID = deviceID
      · have same' := (invoke_unlimited limiter manager call (same ▸ unlimited) redis other).2
        simp only [run, outcomesOf, callsTo, same, decide_true, List.filter_cons_of_pos, same']
        exact congrArg _ (ih _ _)
      · simp only [run, outcomesOf, callsTo, same, decide_false, Bool.false_eq_true, not_false_eq_true,
          List.filter_cons_of_neg]
        exact ih _ _

/-- The calls to the only device with a limiter leave Redis as they would by themselves. -/
theorem only_limited_outcomes {deviceID : String} (only : ∀ other limit, LimitedTo manager other limit → other = deviceID)
    (calls : List Call) (redis : Redis Window) :
    outcomesOf deviceID (run limiter manager calls redis) = run limiter manager (callsTo deviceID calls) redis := by
  induction calls generalizing redis with
  | nil => rfl
  | cons call rest ih =>
      by_cases same : call.deviceID = deviceID
      · simp only [run, outcomesOf, callsTo, same, decide_true, List.filter_cons_of_pos]
        exact congrArg _ (ih _)
      · have unlimited : ∀ limit, ¬ LimitedTo manager call.deviceID limit := fun limit limited =>
          same (only call.deviceID limit limited)
        have kept := (invoke_unlimited limiter manager call unlimited redis redis).1
        simp only [run, outcomesOf, callsTo, same, decide_false, Bool.false_eq_true, not_false_eq_true,
          List.filter_cons_of_neg, kept]
        exact ih _

theorem alone_independent {deviceID : String} (alone : Alone manager deviceID) :
    Independent limiter manager deviceID := by
  intro calls others _ _ same
  by_cases limited : ∃ limit, LimitedTo manager deviceID limit
  · obtain ⟨limit, limited⟩ := limited
    have only : ∀ other otherLimit, LimitedTo manager other otherLimit → other = deviceID :=
      fun other otherLimit => alone other limit otherLimit limited
    rw [only_limited_outcomes limiter manager only, only_limited_outcomes limiter manager only, same]
  · have unlimited : ∀ limit, ¬ LimitedTo manager deviceID limit := fun limit is => limited ⟨limit, is⟩
    rw [unlimited_outcomes limiter manager unlimited calls _ (start limiter),
      unlimited_outcomes limiter manager unlimited others _ (start limiter), same]

/-- The calls that the window counts at time zero. -/
def busy (redis : Redis Window) : Nat := (recent 1000 0 (limiter.counted (redis (windowKey managerDeviceID)))).length

def atZero (deviceID : String) : Call := ⟨deviceID, 0, false⟩

variable {limiter manager}

theorem start_busy (sliding : Sliding limiter) : busy limiter (start limiter) = 0 := by
  simp [busy, start, sliding.fresh, recent]

theorem call_refused (sliding : Sliding limiter) {deviceID : String} {limit : Nat}
    (limited : LimitedTo manager deviceID limit) (redis : Redis Window) (full : limit ≤ busy limiter redis) :
    (onInvokeDeviceAction limiter manager redis (atZero deviceID)).1 = .refused := by
  have isLimited := (sliding.limited 1000 limit 0 (redis (windowKey managerDeviceID))).mpr full
  simp [atZero, invoke_limited limiter manager limited, askLimiter, isLimited]

theorem call_invoked (sliding : Sliding limiter) {deviceID : String} {limit : Nat}
    (limited : LimitedTo manager deviceID limit) (redis : Redis Window) (room : busy limiter redis < limit) :
    (onInvokeDeviceAction limiter manager redis (atZero deviceID)).1 = .invoked ∧
      busy limiter (onInvokeDeviceAction limiter manager redis (atZero deviceID)).2 = busy limiter redis + 1 := by
  have notLimited : (limiter.call 1000 limit 0 (redis (windowKey managerDeviceID))).1 = false := by
    rw [Bool.eq_false_iff]
    intro isLimited
    have full := (sliding.limited 1000 limit 0 _).mp isLimited
    exact absurd full (Nat.not_le_of_lt room)
  have counts := sliding.allowed 1000 limit 0 _ notLimited 0 (Nat.le_refl 0)
  constructor
  · simp [atZero, invoke_limited limiter manager limited, askLimiter, notLimited]
  · simp only [atZero, invoke_limited limiter manager limited, askLimiter, Bool.false_eq_true, ↓reduceIte, busy, counts]
    simp [recent]

/-- Calls at time zero while there is room, and what follows them. -/
theorem calls_invoked (sliding : Sliding limiter) {deviceID : String} {limit : Nat}
    (limited : LimitedTo manager deviceID limit) (count : Nat) (redis : Redis Window)
    (room : busy limiter redis + count ≤ limit) (rest : List Call) :
    ∃ later, busy limiter later = busy limiter redis + count ∧
      run limiter manager (List.replicate count (atZero deviceID) ++ rest) redis =
        List.replicate count (atZero deviceID, .invoked) ++ run limiter manager rest later := by
  induction count generalizing redis with
  | zero => exact ⟨redis, rfl, rfl⟩
  | succ count ih =>
      obtain ⟨invoked, busier⟩ := call_invoked sliding limited redis (by omega)
      obtain ⟨later, isBusy, follows⟩ := ih (onInvokeDeviceAction limiter manager redis (atZero deviceID)).2 (by omega)
      refine ⟨later, by omega, ?_⟩
      simp only [List.replicate_succ, List.cons_append, run, invoked, follows]

/-- As many calls as the limit allows are all invoked; one call to another device before them, and the last is refused. -/
theorem crowded_out (sliding : Sliding limiter) {deviceID other : String} {limit otherLimit : Nat}
    (limited : LimitedTo manager deviceID limit) (otherLimited : LimitedTo manager other otherLimit)
    (differ : other ≠ deviceID) : ¬ Independent limiter manager deviceID := by
  intro independent
  obtain ⟨fewer, isLimit⟩ : ∃ fewer, limit = fewer + 1 := ⟨limit - 1, by have := limited_pos manager limited; omega⟩
  have ordered : ∀ calls : List Call, (∀ call ∈ calls, call.time = 0) → (calls.map Call.time).Pairwise (· ≤ ·) := by
    intro calls zero
    rw [List.pairwise_map]
    exact List.pairwise_of_forall_mem_list fun call member next isNext => by rw [zero call member]; exact Nat.zero_le _
  have same := independent (List.replicate limit (atZero deviceID))
    (atZero other :: List.replicate limit (atZero deviceID))
    (ordered _ fun call member => by rw [List.eq_of_mem_replicate member]; rfl)
    (ordered _ fun call member => by
      rcases List.mem_cons.mp member with rfl | later
      · rfl
      · rw [List.eq_of_mem_replicate later]; rfl)
    (by simp [callsTo, atZero, differ])
  obtain ⟨_, _, alone⟩ := calls_invoked sliding limited limit (start limiter) (by rw [start_busy sliding]; omega) []
  rw [List.append_nil] at alone
  obtain ⟨invoked, busier⟩ := call_invoked sliding otherLimited (start limiter)
    (by rw [start_busy sliding]; exact limited_pos manager otherLimited)
  rw [start_busy sliding] at busier
  obtain ⟨full, isFull, crowded⟩ := calls_invoked sliding limited fewer
    (onInvokeDeviceAction limiter manager (start limiter) (atZero other)).2 (by omega) [atZero deviceID]
  have refused := call_refused sliding limited full (by omega)
  have otherwise : run limiter manager (atZero other :: List.replicate limit (atZero deviceID)) (start limiter) =
      (atZero other, .invoked) :: (List.replicate fewer (atZero deviceID, .invoked) ++ [(atZero deviceID, .refused)]) := by
    rw [isLimit, List.replicate_succ', run, invoked, crowded, run, run, refused]
  rw [alone, otherwise] at same
  have isRefused : (atZero deviceID, Outcome.refused) ∈ outcomesOf deviceID
      ((atZero other, .invoked) :: (List.replicate fewer (atZero deviceID, .invoked) ++
        [(atZero deviceID, .refused)])) :=
    List.mem_filter.mpr ⟨by simp, by simp [atZero]⟩
  rw [← same] at isRefused
  have := List.eq_of_mem_replicate (List.mem_append.mp (List.mem_filter.mp isRefused).1 |>.resolve_right (by simp [run]))
  cases this

end Independence

/-! Which devices are independent of the others. -/
section Devices

/-- A device is independent of the others exactly when no two devices have limiters, it being one of them. -/
theorem independent_iff_alone {Window : Type} {limiter : RollingRateLimiter Window} (sliding : Sliding limiter)
    (manager : DeviceManager) (deviceID : String) : Independent limiter manager deviceID ↔ Alone manager deviceID := by
  constructor
  · intro independent other limit otherLimit limited otherLimited
    by_contra differ
    exact crowded_out sliding limited otherLimited differ independent
  · exact alone_independent limiter manager

/-- A window of times, to which every call is added. -/
def everyCall : RollingRateLimiter (List Nat) where
  fresh := []
  call interval limit now times :=
    (decide (limit ≤ (recent interval now times).length), now :: recent interval now times)
  counted times := times

theorem every_call_sliding : Sliding everyCall where
  fresh := rfl
  limited interval limit now window := by simp [everyCall]
  allowed interval limit now window _ later after := by
    have stays : recent interval later (recent interval now window) = recent interval later window := by
      simp only [recent, List.filter_filter]
      apply List.filter_congr
      intro time _
      simp only [Bool.and_eq_left_iff_imp, decide_eq_true_eq]
      omega
    simp only [everyCall, recent, List.filter_cons] at stays ⊢
    rw [stays]

/-- Two devices with a limit of one call a second. -/
def twoLimited : DeviceManager :=
  ⟨false, false, [("camera", .chDevice true (some (.number 1))), ("scale", .chDevice true (some (.number 1)))]⟩

/-- A call to the camera, and the scale has no call left. -/
theorem scale_depends_on_camera : ¬ Independent everyCall twoLimited "scale" := by
  intro independent
  have same := independent [⟨"scale", 0, false⟩] [⟨"camera", 0, false⟩, ⟨"scale", 0, false⟩] (by decide) (by decide) rfl
  exact absurd same (by decide +kernel)

/-- The scale declares no limit. -/
def cameraLimited : DeviceManager :=
  ⟨false, false, [("camera", .chDevice true (some (.number 1))), ("scale", .chDevice true none)]⟩

theorem camera_alone : Alone cameraLimited "camera" := by
  rintro other _ otherLimit _ ⟨cdifDevice, usable, own⟩
  by_contra differ
  by_cases isScale : other = "scale"
  · subst isScale
    cases usable
    cases own
  · have missing : cameraLimited.deviceMap.lookup other = none := by
      simp [cameraLimited, List.lookup_eq_none_iff, differ, isScale]
    by_cases known : other ∈ inheritedNames
    · simp only [ensureDeviceState, get_inherited missing known] at usable
      cases usable
    · simp [ensureDeviceState, get_undefined missing known] at usable

theorem camera_independent : Independent everyCall cameraLimited "camera" :=
  (independent_iff_alone every_call_sliding cameraLimited "camera").mpr camera_alone

end Devices

end Countinghouse.DeviceRateLimits
