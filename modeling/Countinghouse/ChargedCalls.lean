import Mathlib.Tactic.Common

/-!
When a call is charged, on its five paths: a session of HTTP invoke-action or of an MCP
tools/call, a hop through the main thread, a hop over a peer channel, and a queued job. For
one call the callee's reply, the caller's timer and the answer of the metering come in any
order, and an attempt of a job that has timed out may still be answered.

bullmq runs the processor of a job again after a rejection while attempts are left, unless it
is an UnrecoverableError, and keeps the job locked while the promise of an attempt is open.
-/

namespace Countinghouse.ChargedCalls

inductive Verdict where
  | success
  | failure
  deriving DecidableEq

/-- What the caller has been told, and how many times recordCall has been issued for the call. -/
structure Books where
  told : List Verdict
  recorded : Nat
  deriving DecidableEq

def Books.empty : Books := ⟨[], 0⟩

def Books.tell (books : Books) (verdict : Verdict) : Books := { books with told := books.told ++ [verdict] }

def Books.recordCall (books : Books) : Books := { books with recorded := books.recorded + 1 }

/-- Whether `CHUtil.ci` and the key that pays for the call are set. -/
structure Terms where
  ci : Bool
  keyed : Bool

def Terms.available : Terms := ⟨true, true⟩

inductive Event where
  /-- Refused before the callee is asked. -/
  | denied
  /-- The callee is asked: the timer is set. For a job an attempt begins. -/
  | sent
  /-- A queued peer-invoke is posted. -/
  | posted
  | replied (success : Bool)
  /-- A job's module is unloaded: an UnrecoverableError. -/
  | unloaded
  /-- The main thread takes up a metering request, or refuses it. -/
  | requested
  | rateLimited
  /-- recordCall has answered; for a job the completion hook has. -/
  | metered
  /-- The reply of a channel arrives. -/
  | delivered
  | expired
  /-- The channel is closed. -/
  | invalidated
  /-- An attempt that has timed out is answered. -/
  | lateReplied (success : Bool)
  deriving DecidableEq

/-! Sessions. -/
section Sessions

structure Session where
  /-- `timer`, and whether it has `expired`. -/
  timer : Option Bool
  /-- `once` has let a call through. -/
  called : Bool
  deriving DecidableEq

/-- `callback` of a session: what its caller is told. -/
def Session.callback (session : Session) (success : Bool) : Session × Option Verdict :=
  if session.called then (session, none)
  else
    match session.timer with
    | none => (⟨none, true⟩, none)
    | some true => (⟨none, true⟩, some .failure)
    | some false => (⟨none, true⟩, some (if success then .success else .failure))

inductive Entry where
  | http
  | mcp
  deriving DecidableEq

structure SessionCall where
  entry : Entry
  session : Session
  entered : Bool
  /-- The callback is in `msgQueue`. -/
  waiting : Bool
  meteredTool : Bool
  books : Books

def SessionCall.fresh (entry : Entry) : SessionCall := ⟨entry, ⟨none, false⟩, false, false, true, Books.empty⟩

def SessionCall.recordMeteredCall (terms : Terms) (call : SessionCall) : SessionCall :=
  if call.meteredTool && terms.keyed && terms.ci then
    { call with meteredTool := false, books := call.books.recordCall }
  else call

/-- `Session.prototype.response` -/
def SessionCall.response (terms : Terms) (call : SessionCall) (verdict : Verdict) : SessionCall :=
  let metered := if verdict = .success then call.recordMeteredCall terms else call
  { metered with books := metered.books.tell verdict }

/-- `respond` of handleToolsCall. -/
def SessionCall.respond (terms : Terms) (call : SessionCall) (verdict : Verdict) : SessionCall :=
  let books := if verdict = .success ∧ terms.keyed = true then call.books.recordCall else call.books
  { call with books := books.tell verdict }

def SessionCall.answer (terms : Terms) (call : SessionCall) (verdict : Verdict) : SessionCall :=
  match call.entry with
  | .http => call.response terms verdict
  | .mcp => call.respond terms verdict

def SessionCall.callback (terms : Terms) (call : SessionCall) (success : Bool) : SessionCall :=
  let (session, verdict) := call.session.callback success
  let called := { call with session := session }
  match verdict with
  | some verdict => called.answer terms verdict
  | none => called

def SessionCall.step (terms : Terms) (call : SessionCall) : Event → Option SessionCall
  | .denied => if call.entered then none else some ({ call with entered := true }.answer terms .failure)
  | .sent =>
      if call.entered then none
      else some { call with entered := true, waiting := true, session := { call.session with timer := some false } }
  | .replied success =>
      if call.waiting then some ({ call with waiting := false }.callback terms success) else none
  | .expired =>
      if call.session.timer = some false then
        some ({ call with session := { call.session with timer := some true } }.callback terms false)
      else none
  | _ => none

end Sessions

/-! Hops through the main thread. -/
section MainThreadHops

structure HopCall where
  session : Session
  entered : Bool
  waiting : Bool
  /-- recordCall has not answered. -/
  metering : Bool
  books : Books

def HopCall.fresh : HopCall := ⟨⟨none, false⟩, false, false, false, Books.empty⟩

/-- `callback` of the session, whose localCallback replies to the caller's worker. -/
def HopCall.callback (call : HopCall) (success : Bool) : HopCall :=
  let (session, verdict) := call.session.callback success
  match verdict with
  | some verdict => { call with session := session, books := call.books.tell verdict }
  | none => { call with session := session }

/-- sendInvokeActionMessageToWorker. -/
def HopCall.step (terms : Terms) (call : HopCall) : Event → Option HopCall
  | .denied => if call.entered then none else some { call with entered := true, books := call.books.tell .failure }
  | .sent =>
      if call.entered then none
      else some { call with entered := true, waiting := true, session := { call.session with timer := some false } }
  | .replied success =>
      if call.waiting then
        let replied := { call with waiting := false }
        if !success then some (replied.callback false)
        else if !terms.ci then some (replied.callback true)
        -- HOP_IDENTITY_UNRESOLVED
        else if !terms.keyed then some (replied.callback false)
        else some { replied with metering := true, books := call.books.recordCall }
      else none
  | .metered => if call.metering then some ({ call with metering := false }.callback true) else none
  | .expired =>
      if call.session.timer = some false then
        some ({ call with session := { call.session with timer := some true } }.callback false)
      else none
  | _ => none

end MainThreadHops

/-! Hops over a peer channel. -/
section PeerHops

/-- Where the callee is with a hop. -/
inductive Callee where
  | idle
  /-- In the `sendQueue` of the caller. -/
  | queued
  | running
  /-- The metering request is on its way to the main thread. -/
  | requesting
  | metering
  | replying (success : Bool)
  | finished
  deriving DecidableEq

structure PeerCall where
  entered : Bool
  /-- The call is in `pending`, with its timer. -/
  pending : Bool
  callee : Callee
  books : Books

def PeerCall.fresh : PeerCall := ⟨false, false, .idle, Books.empty⟩

/-- The timer of `invoke` and `invalidate`: the caller is told, and a request that was not posted is dropped. -/
def PeerCall.giveUp (call : PeerCall) : PeerCall :=
  { call with
    pending := false
    callee := if call.callee = .queued then .finished else call.callee
    books := call.books.tell .failure }

/-- `_handleReply` -/
def PeerCall.handleReply (call : PeerCall) (success : Bool) : PeerCall :=
  if call.pending then
    { call with pending := false, callee := .finished, books := call.books.tell (if success then .success else .failure) }
  else { call with callee := .finished }

def PeerCall.step (terms : Terms) (call : PeerCall) : Event → Option PeerCall
  | .denied =>
      if call.entered then none
      else some { call with entered := true, callee := .finished, books := call.books.tell .failure }
  | .sent => if call.entered then none else some { call with entered := true, pending := true, callee := .queued }
  | .posted => if call.callee = .queued then some { call with callee := .running } else none
  | .replied success =>
      if call.callee = .running then
        some { call with callee := if success && terms.keyed then .requesting else .replying false }
      else none
  | .requested =>
      if call.callee = .requesting then
        -- handleMeteringRequest; without a CdifInterface it fails open.
        if terms.ci then some { call with callee := .metering, books := call.books.recordCall }
        else some { call with callee := .replying true }
      else none
  | .rateLimited => if call.callee = .requesting then some { call with callee := .replying false } else none
  | .metered => if call.callee = .metering then some { call with callee := .replying true } else none
  | .delivered =>
      match call.callee with
      | .replying success => some (call.handleReply success)
      | _ => none
  | .expired | .invalidated => if call.pending then some call.giveUp else none
  | _ => none

end PeerHops

/-! Queued jobs. -/
section Jobs

structure Job where
  /-- `opts.attempts`, and whether `opts.timeout` is set. -/
  attempts : Nat
  timed : Bool
  made : Nat
  /-- The open promise of an attempt, and whether it waits for the completion hook. -/
  current : Option Bool
  /-- Attempts that have timed out and are not answered. -/
  stale : Nat
  books : Books

def Job.fresh (attempts : Nat) (timed : Bool) : Job := ⟨attempts, timed, 0, none, 0, Books.empty⟩

/-- A rejected attempt: bullmq tries again or fails the job. -/
def Job.reject (job : Job) : Job :=
  if job.made < max 1 job.attempts then { job with current := none }
  else { job with current := none, books := job.books.tell .failure }

/-- The recordCall of the worker callback. -/
def Job.record (terms : Terms) (job : Job) : Job :=
  if terms.keyed then { job with books := job.books.recordCall } else job

def Job.step (terms : Terms) (job : Job) : Event → Option Job
  | .sent =>
      if job.books.told = [] ∧ job.current = none ∧ job.made < max 1 job.attempts then
        some { job with made := job.made + 1, current := some false }
      else none
  | .replied success =>
      if job.current = some false then
        if success then some { job.record terms with current := some true } else some job.reject
      else none
  | .unloaded =>
      if job.current = some false then some { job with current := none, books := job.books.tell .failure } else none
  | .metered =>
      if job.current = some true then some { job with current := none, books := job.books.tell .success } else none
  | .expired =>
      if job.current = some false ∧ job.timed = true then some { job with stale := job.stale + 1 }.reject else none
  | .lateReplied success =>
      if 0 < job.stale then
        let answered := { job with stale := job.stale - 1 }
        if success then some (answered.record terms) else some answered
      else none
  | _ => none

end Jobs

/-! A call on any path. -/
section Calls

inductive Path where
  | session (entry : Entry)
  | mainThreadHop
  | peerHop
  | job (attempts : Nat) (timed : Bool)

inductive Call where
  | session (call : SessionCall)
  | hop (call : HopCall)
  | peer (call : PeerCall)
  | job (job : Job)

def Path.fresh : Path → Call
  | .session entry => .session (SessionCall.fresh entry)
  | .mainThreadHop => .hop HopCall.fresh
  | .peerHop => .peer PeerCall.fresh
  | .job attempts timed => .job (Job.fresh attempts timed)

def Call.books : Call → Books
  | .session call => call.books
  | .hop call => call.books
  | .peer call => call.books
  | .job call => call.books

def step (terms : Terms) (call : Call) (event : Event) : Option Call :=
  match call with
  | .session call => (call.step terms event).map .session
  | .hop call => (call.step terms event).map .hop
  | .peer call => (call.step terms event).map .peer
  | .job job => (job.step terms event).map .job

def run (terms : Terms) (call : Call) : List Event → Option Call
  | [] => some call
  | event :: rest => do
      let next ← step terms call event
      run terms next rest

/-- Charged once when told success, and never when told failure. -/
def Books.exact (books : Books) : Prop :=
  (.success ∈ books.told → books.recorded = 1) ∧ (.failure ∈ books.told → books.recorded = 0)

/-- An event that comes too late: the callee of a hop succeeds, or its metering request is taken up, when the caller has
been told of a timeout; the timer runs out, or the channel closes, while recordCall is issued and the caller not told; an
attempt succeeds that has timed out. -/
def late (call : Call) (event : Event) : Bool :=
  match call, event with
  | .hop call, .replied true => call.session.called
  | .hop call, .expired => call.metering
  | .peer call, .requested => !call.pending
  | .peer call, .expired | .peer call, .invalidated => call.callee = .metering || call.callee = .replying true
  | .job _, .lateReplied true => true
  | _, _ => false

/-- No event of a run comes too late. -/
def timely (terms : Terms) (call : Call) : List Event → Bool
  | [] => true
  | event :: rest =>
      !late call event &&
        match step terms call event with
        | some next => timely terms next rest
        | none => true

end Calls

/-! The shapes a call can have when the metering is there; the flag says that an event has come too late. -/
section Shapes

inductive SessionShape : SessionCall → Prop where
  | entering (entry : Entry) : SessionShape ⟨entry, ⟨none, false⟩, false, false, true, ⟨[], 0⟩⟩
  | waiting (entry : Entry) : SessionShape ⟨entry, ⟨some false, false⟩, true, true, true, ⟨[], 0⟩⟩
  | denied (entry : Entry) : SessionShape ⟨entry, ⟨none, false⟩, true, false, true, ⟨[.failure], 0⟩⟩
  | failed (entry : Entry) (waiting : Bool) :
      SessionShape ⟨entry, ⟨none, true⟩, true, waiting, true, ⟨[.failure], 0⟩⟩
  | served (entry : Entry) (meteredTool : Bool) :
      SessionShape ⟨entry, ⟨none, true⟩, true, false, meteredTool, ⟨[.success], 1⟩⟩

inductive HopShape : Bool → HopCall → Prop where
  | entering : HopShape false ⟨⟨none, false⟩, false, false, false, ⟨[], 0⟩⟩
  | waiting : HopShape false ⟨⟨some false, false⟩, true, true, false, ⟨[], 0⟩⟩
  | metering : HopShape false ⟨⟨some false, false⟩, true, false, true, ⟨[], 1⟩⟩
  | denied : HopShape false ⟨⟨none, false⟩, true, false, false, ⟨[.failure], 0⟩⟩
  | failed (waiting : Bool) : HopShape false ⟨⟨none, true⟩, true, waiting, false, ⟨[.failure], 0⟩⟩
  | served : HopShape false ⟨⟨none, true⟩, true, false, false, ⟨[.success], 1⟩⟩
  | charged (metering : Bool) : HopShape true ⟨⟨none, true⟩, true, false, metering, ⟨[.failure], 1⟩⟩

/-- recordCall has been issued for a hop that is at this point. -/
def Callee.billed : Callee → Bool
  | .metering | .replying true => true
  | _ => false

inductive PeerShape : Bool → PeerCall → Prop where
  | entering : PeerShape false ⟨false, false, .idle, ⟨[], 0⟩⟩
  | waiting (callee : Callee) (begun : callee ≠ .idle) (unbilled : callee.billed = false) (unanswered : callee ≠ .finished) :
      PeerShape false ⟨true, true, callee, ⟨[], 0⟩⟩
  | metering (callee : Callee) (billed : callee.billed = true) : PeerShape false ⟨true, true, callee, ⟨[], 1⟩⟩
  | failed (callee : Callee) (unbilled : callee.billed = false) (sent : callee ≠ .queued) :
      PeerShape false ⟨true, false, callee, ⟨[.failure], 0⟩⟩
  | served : PeerShape false ⟨true, false, .finished, ⟨[.success], 1⟩⟩
  | charged (callee : Callee) (passed : callee.billed = true ∨ callee = .finished) :
      PeerShape true ⟨true, false, callee, ⟨[.failure], 1⟩⟩

/-- `extra` counts the late successes of attempts that have timed out. -/
inductive JobShape : Nat → Job → Prop where
  | trying (attempts made stale extra : Nat) (timed : Bool) (current : Option Bool) :
      JobShape extra ⟨attempts, timed, made, current, stale, ⟨[], if current = some true then extra + 1 else extra⟩⟩
  | failed (attempts made stale extra : Nat) (timed : Bool) :
      JobShape extra ⟨attempts, timed, made, none, stale, ⟨[.failure], extra⟩⟩
  | completed (attempts made stale extra : Nat) (timed : Bool) :
      JobShape extra ⟨attempts, timed, made, none, stale, ⟨[.success], extra + 1⟩⟩

inductive Shape : Bool → Call → Prop where
  | session {call : SessionCall} (shape : SessionShape call) : Shape false (.session call)
  | hop {late : Bool} {call : HopCall} (shape : HopShape late call) : Shape late (.hop call)
  | peer {late : Bool} {call : PeerCall} (shape : PeerShape late call) : Shape late (.peer call)
  | job {extra : Nat} {job : Job} (shape : JobShape extra job) : Shape (0 < extra) (.job job)

theorem fresh_shape (path : Path) : Shape false path.fresh := by
  cases path with
  | session entry => exact .session (.entering entry)
  | mainThreadHop => exact .hop .entering
  | peerHop => exact .peer .entering
  | job attempts timed => exact .job (.trying attempts 0 0 0 timed none)

/-- The charge of a call that its caller has been told about is exact unless an event came too late. -/
theorem shape_exact {isLate : Bool} {call : Call} (shape : Shape isLate call) (told : call.books.told ≠ []) :
    call.books.exact ↔ isLate = false := by
  cases shape with
  | session shape => cases shape <;> simp_all [Call.books, Books.exact]
  | hop shape => cases shape <;> simp_all [Call.books, Books.exact]
  | peer shape => cases shape <;> simp_all [Call.books, Books.exact]
  | job shape => cases shape <;> simp_all [Call.books, Books.exact]

end Shapes

/-! What one event does to a shape. -/
section Steps

theorem session_step_shape {call next : SessionCall} (shape : SessionShape call) {event : Event}
    (stepped : call.step .available event = some next) : SessionShape next := by
  cases shape with
  | entering entry =>
      cases event <;> simp [SessionCall.step] at stepped <;> subst stepped
      · cases entry <;> exact .denied _
      · exact .waiting entry
  | waiting entry =>
      cases event <;> simp [SessionCall.step] at stepped <;> subst stepped
      case replied success => cases entry <;> cases success <;> first | exact .served _ _ | exact .failed _ _
      case expired => cases entry <;> exact .failed _ _
  | denied entry => cases event <;> simp [SessionCall.step] at stepped
  | failed entry waiting =>
      cases event <;> simp [SessionCall.step] at stepped
      obtain ⟨-, rfl⟩ := stepped
      exact .failed entry false
  | served entry meteredTool => cases event <;> simp [SessionCall.step] at stepped

theorem hop_step_shape {isLate : Bool} {call next : HopCall} (shape : HopShape isLate call) {event : Event}
    (stepped : call.step .available event = some next) : HopShape (isLate || late (.hop call) event) next := by
  cases shape with
  | entering =>
      cases event <;> simp [HopCall.step] at stepped <;> subst stepped
      · exact .denied
      · exact .waiting
  | waiting =>
      cases event <;> simp [HopCall.step, Terms.available] at stepped
      case replied success =>
        cases success <;> simp at stepped <;> subst stepped
        · exact .failed false
        · exact .metering
      case expired =>
        subst stepped
        exact .failed true
  | metering =>
      cases event <;> simp [HopCall.step] at stepped <;> subst stepped
      · exact .served
      · exact .charged true
  | denied => cases event <;> simp [HopCall.step] at stepped
  | failed waiting =>
      cases event <;> simp [HopCall.step, Terms.available] at stepped
      obtain ⟨rfl, stepped⟩ := stepped
      rename_i success
      cases success <;> simp at stepped <;> subst stepped
      · exact .failed false
      · exact .charged true
  | served => cases event <;> simp [HopCall.step] at stepped
  | charged metering =>
      cases event <;> simp [HopCall.step] at stepped
      obtain ⟨-, rfl⟩ := stepped
      exact .charged false

/-- The caller gives up on a hop for which nothing has been recorded. -/
theorem waiting_gives_up {callee : Callee} (begun : callee ≠ .idle) (unbilled : callee.billed = false)
    (unanswered : callee ≠ .finished) :
    PeerShape (decide (callee = .metering) || decide (callee = .replying true))
      (PeerCall.giveUp ⟨true, true, callee, ⟨[], 0⟩⟩) := by
  cases callee with
  | idle => exact absurd rfl begun
  | queued => exact .failed .finished rfl (by decide)
  | running => exact .failed .running rfl (by decide)
  | requesting => exact .failed .requesting rfl (by decide)
  | metering => simp [Callee.billed] at unbilled
  | replying success =>
      cases success
      · exact .failed (.replying false) rfl (by decide)
      · simp [Callee.billed] at unbilled
  | finished => exact absurd rfl unanswered

/-- The caller gives up on a hop after recordCall. -/
theorem metering_gives_up {callee : Callee} (billed : callee.billed = true) :
    PeerShape (decide (callee = .metering) || decide (callee = .replying true))
      (PeerCall.giveUp ⟨true, true, callee, ⟨[], 1⟩⟩) := by
  cases callee with
  | metering => exact .charged .metering (Or.inl rfl)
  | replying success =>
      cases success
      · simp [Callee.billed] at billed
      · exact .charged (.replying true) (Or.inl rfl)
  | idle | queued | running | requesting | finished => simp [Callee.billed] at billed

theorem peer_step_shape {isLate : Bool} {call next : PeerCall} (shape : PeerShape isLate call) {event : Event}
    (stepped : call.step .available event = some next) : PeerShape (isLate || late (.peer call) event) next := by
  cases shape with
  | entering =>
      cases event <;> simp [PeerCall.step] at stepped <;> subst stepped
      · exact .failed .finished rfl (by decide)
      · exact .waiting .queued (by decide) rfl (by decide)
  | waiting callee begun unbilled unanswered =>
      cases event <;> simp [PeerCall.step, Terms.available] at stepped
      case posted =>
        obtain ⟨rfl, rfl⟩ := stepped
        exact .waiting .running (by decide) rfl (by decide)
      case replied success =>
        obtain ⟨rfl, rfl⟩ := stepped
        cases success
        · exact .waiting (.replying false) (by decide) rfl (by decide)
        · exact .waiting .requesting (by decide) rfl (by decide)
      case requested =>
        obtain ⟨rfl, rfl⟩ := stepped
        exact .metering .metering rfl
      case rateLimited =>
        obtain ⟨rfl, rfl⟩ := stepped
        exact .waiting (.replying false) (by decide) rfl (by decide)
      case metered =>
        obtain ⟨rfl, rfl⟩ := stepped
        simp [Callee.billed] at unbilled
      case delivered =>
        cases callee <;> simp at stepped
        rename_i success
        subst stepped
        cases success
        · exact .failed .finished rfl (by decide)
        · simp [Callee.billed] at unbilled
      case expired =>
        subst stepped
        exact waiting_gives_up begun unbilled unanswered
      case invalidated =>
        subst stepped
        exact waiting_gives_up begun unbilled unanswered
  | metering callee billed =>
      cases event <;> simp [PeerCall.step, Terms.available] at stepped
      case posted =>
        obtain ⟨rfl, rfl⟩ := stepped
        simp [Callee.billed] at billed
      case replied success =>
        obtain ⟨rfl, rfl⟩ := stepped
        simp [Callee.billed] at billed
      case requested =>
        obtain ⟨rfl, rfl⟩ := stepped
        simp [Callee.billed] at billed
      case rateLimited =>
        obtain ⟨rfl, rfl⟩ := stepped
        simp [Callee.billed] at billed
      case metered =>
        obtain ⟨rfl, rfl⟩ := stepped
        exact .metering (.replying true) rfl
      case delivered =>
        cases callee <;> simp at stepped
        rename_i success
        subst stepped
        cases success
        · simp [Callee.billed] at billed
        · exact .served
      case expired =>
        subst stepped
        exact metering_gives_up billed
      case invalidated =>
        subst stepped
        exact metering_gives_up billed
  | failed callee unbilled sent =>
      cases event <;> simp [PeerCall.step, Terms.available] at stepped
      case posted => exact absurd stepped.1 sent
      case replied success =>
        obtain ⟨rfl, rfl⟩ := stepped
        cases success
        · exact .failed (.replying false) rfl (by decide)
        · exact .failed .requesting rfl (by decide)
      case requested =>
        obtain ⟨rfl, rfl⟩ := stepped
        exact .charged .metering (Or.inl rfl)
      case rateLimited =>
        obtain ⟨rfl, rfl⟩ := stepped
        exact .failed (.replying false) rfl (by decide)
      case metered =>
        obtain ⟨rfl, rfl⟩ := stepped
        simp [Callee.billed] at unbilled
      case delivered =>
        cases callee <;> simp at stepped
        subst stepped
        exact .failed .finished rfl (by decide)
  | served => cases event <;> simp [PeerCall.step] at stepped
  | charged callee passed =>
      cases event <;> simp [PeerCall.step, Terms.available] at stepped
      case posted =>
        obtain ⟨rfl, rfl⟩ := stepped
        simp [Callee.billed] at passed
      case replied success =>
        obtain ⟨rfl, rfl⟩ := stepped
        simp [Callee.billed] at passed
      case requested =>
        obtain ⟨rfl, rfl⟩ := stepped
        simp [Callee.billed] at passed
      case rateLimited =>
        obtain ⟨rfl, rfl⟩ := stepped
        simp [Callee.billed] at passed
      case metered =>
        obtain ⟨rfl, rfl⟩ := stepped
        exact .charged (.replying true) (Or.inl rfl)
      case delivered =>
        cases callee <;> simp at stepped
        subst stepped
        exact .charged .finished (Or.inr rfl)

/-- A rejected attempt is tried again or fails the job. -/
theorem rejected_shape (attempts made stale extra : Nat) (timed : Bool) :
    JobShape extra (Job.reject ⟨attempts, timed, made, some false, stale, ⟨[], extra⟩⟩) := by
  unfold Job.reject
  split
  · exact .trying _ _ _ _ _ none
  · exact .failed _ _ _ _ _

theorem late_shape (attempts made stale extra : Nat) (timed : Bool) (current : Option Bool) :
    JobShape (extra + 1) (Job.record .available
      ⟨attempts, timed, made, current, stale, ⟨[], if current = some true then extra + 1 else extra⟩⟩) := by
  have added : (if current = some true then extra + 1 else extra) + 1 =
      if current = some true then extra + 1 + 1 else extra + 1 := by
    split <;> rfl
  simp only [Job.record, Terms.available, Books.recordCall, if_true, added]
  exact .trying _ _ _ _ _ current

theorem job_step_shape {extra : Nat} {job next : Job} (shape : JobShape extra job) {event : Event}
    (stepped : job.step .available event = some next) :
    JobShape (if late (.job job) event then extra + 1 else extra) next := by
  cases shape with
  | trying attempts made stale extra timed current =>
      cases event <;> simp [Job.step] at stepped
      case sent =>
        obtain ⟨⟨rfl, -⟩, rfl⟩ := stepped
        exact .trying _ _ _ _ _ (some false)
      case replied success =>
        obtain ⟨rfl, stepped⟩ := stepped
        cases success <;> simp at stepped <;> subst stepped
        · exact rejected_shape _ _ _ _ _
        · exact .trying _ _ _ _ _ (some true)
      case unloaded =>
        obtain ⟨rfl, rfl⟩ := stepped
        exact .failed _ _ _ _ _
      case metered =>
        obtain ⟨rfl, rfl⟩ := stepped
        exact .completed _ _ _ _ _
      case expired =>
        obtain ⟨⟨rfl, rfl⟩, rfl⟩ := stepped
        exact rejected_shape _ _ _ _ _
      case lateReplied success =>
        obtain ⟨-, stepped⟩ := stepped
        cases success <;> simp at stepped <;> subst stepped
        · exact .trying _ _ _ _ _ current
        · exact late_shape attempts made _ extra timed current
  | failed attempts made stale extra timed =>
      cases event <;> simp [Job.step] at stepped
      rename_i success
      obtain ⟨-, stepped⟩ := stepped
      cases success <;> simp at stepped <;> subst stepped
      · exact .failed _ _ _ _ _
      · exact .failed _ _ _ _ _
  | completed attempts made stale extra timed =>
      cases event <;> simp [Job.step] at stepped
      rename_i success
      obtain ⟨-, stepped⟩ := stepped
      cases success <;> simp at stepped <;> subst stepped
      · exact .completed _ _ _ _ _
      · exact .completed _ _ _ _ _

/-- A session records a call in the step that tells its caller. -/
theorem session_on_time (call : SessionCall) (event : Event) : late (.session call) event = false := by
  cases event <;> rfl

theorem step_shape {isLate : Bool} {call next : Call} (shape : Shape isLate call) {event : Event}
    (stepped : step .available call event = some next) : Shape (isLate || late call event) next := by
  cases shape with
  | session shape =>
      obtain ⟨moved, isMoved, rfl⟩ := Option.map_eq_some_iff.mp stepped
      rw [session_on_time]
      exact .session (session_step_shape shape isMoved)
  | hop shape =>
      obtain ⟨moved, isMoved, rfl⟩ := Option.map_eq_some_iff.mp stepped
      exact .hop (hop_step_shape shape isMoved)
  | peer shape =>
      obtain ⟨moved, isMoved, rfl⟩ := Option.map_eq_some_iff.mp stepped
      exact .peer (peer_step_shape shape isMoved)
  | job shape =>
      obtain ⟨moved, isMoved, rfl⟩ := Option.map_eq_some_iff.mp stepped
      have moves := Shape.job (job_step_shape shape isMoved)
      cases isLate : late (.job _) event with
      | false => simpa [isLate] using moves
      | true => simpa [isLate] using moves

end Steps

/-! Whole runs. -/
section Runs

theorem run_shape {isLate : Bool} {call reached : Call} (shape : Shape isLate call) (events : List Event)
    (ran : run .available call events = some reached) : Shape (isLate || !timely .available call events) reached := by
  induction events generalizing isLate call with
  | nil =>
      obtain rfl := Option.some.inj ran
      simpa [timely] using shape
  | cons event rest ih =>
      obtain ⟨next, stepped, ran⟩ := Option.bind_eq_some_iff.mp ran
      have moved := ih (step_shape shape stepped) ran
      have flags : (isLate || late call event || !timely .available next rest) =
          (isLate || !timely .available call (event :: rest)) := by
        simp [timely, stepped, Bool.or_assoc]
      exact flags ▸ moved

/-- Nothing is late for a session of HTTP or of MCP. -/
theorem sessions_timely (terms : Terms) (call : SessionCall) (events : List Event) :
    timely terms (.session call) events = true := by
  induction events generalizing call with
  | nil => rfl
  | cons event rest ih =>
      simp only [timely, session_on_time, Bool.not_false, Bool.true_and, step]
      cases call.step terms event with
      | none => rfl
      | some next => exact ih next

theorem untold_exact {books : Books} (untold : books.told = []) : books.exact := by
  simp [Books.exact, untold]

/-- With the metering there and a key to bill: in every state of a run in which no event comes too late, the call is charged
once if its caller has been told success and not if told failure; and where an event has come too late, it is not so once
the caller has been told. -/
theorem charged_exactly_iff_timely (path : Path) (events : List Event) (reached : Call)
    (ran : run .available path.fresh events = some reached) :
    (timely .available path.fresh events = true → reached.books.exact) ∧
      (reached.books.told ≠ [] → reached.books.exact → timely .available path.fresh events = true) := by
  have shape := run_shape (fresh_shape path) events ran
  rw [Bool.false_or] at shape
  constructor
  · intro onTime
    by_cases untold : reached.books.told = []
    · exact untold_exact untold
    · exact (shape_exact shape untold).mpr (by simp [onTime])
  · intro told charged
    simpa using (shape_exact shape told).mp charged

/-- A hop over a channel whose reply comes in time. -/
def servedHop : List Event := [.sent, .posted, .replied true, .requested, .metered, .delivered]

theorem served_hop_charged :
    (∃ reached, run .available Path.peerHop.fresh servedHop = some reached ∧ reached.books = ⟨[.success], 1⟩) ∧
      ∀ reached, run .available Path.peerHop.fresh servedHop = some reached → reached.books.exact :=
  ⟨⟨_, rfl, rfl⟩, fun reached ran => (charged_exactly_iff_timely .peerHop servedHop reached ran).1 rfl⟩

/-- A hop through the main thread whose callee succeeds after the timer has run out, and one whose timer runs out before
recordCall answers; a hop over a channel whose metering is still under way when its timer runs out; a job whose only
attempt succeeds after its timeout, and one of two attempts that both succeed. -/
theorem calls_charged_wrongly :
    (run .available Path.mainThreadHop.fresh [.sent, .expired, .replied true, .metered]).map Call.books =
        some ⟨[.failure], 1⟩ ∧
      (run .available Path.mainThreadHop.fresh [.sent, .replied true, .expired, .metered]).map Call.books =
        some ⟨[.failure], 1⟩ ∧
      (run .available Path.peerHop.fresh [.sent, .posted, .replied true, .requested, .expired, .metered,
        .delivered]).map Call.books = some ⟨[.failure], 1⟩ ∧
      (run .available (Path.job 1 true).fresh [.sent, .expired, .lateReplied true]).map Call.books =
        some ⟨[.failure], 1⟩ ∧
      (run .available (Path.job 2 true).fresh [.sent, .expired, .sent, .lateReplied true, .replied true,
        .metered]).map Call.books = some ⟨[.success], 2⟩ ∧
      ¬ Books.exact ⟨[.failure], 1⟩ ∧ ¬ Books.exact ⟨[.success], 2⟩ := by
  refine ⟨rfl, rfl, rfl, rfl, rfl, ?_, ?_⟩ <;> simp [Books.exact]

end Runs

end Countinghouse.ChargedCalls
