import Mathlib.Data.List.Nodup
import Mathlib.Logic.Relation

/-!
One end of a direct worker-to-worker channel, `PeerChannel` of
lib/peer-channel.js: request and reply correlation, the per-call timer, the
send and dispatch caps, and invalidation.

JavaScript runs to completion, but a callback is foreign code that may call back
into the channel before it returns. `stack` holds what is still to run in
the current turn of the event loop: a callback that has not returned (`user`), or
the rest of the loop over `pending` inside `invalidate` (`closing`). Messages and
timers start a turn of their own, so they need an empty stack; `invoke`, a reply
callback and `invalidate` may be called by foreign code at any time.

The peer is the environment. It may send any peer-invoke, and it answers a
peer-invoke it received at most once. Callbacks return normally and
`postMessage` does not throw.
-/

namespace Countinghouse.PeerChannel

variable {Payload : Type}

/-- The arguments of `invoke` that travel to the callee. -/
structure Invocation (Payload : Type) where
  deviceID : String
  serviceID : String
  actionName : String
  input : Payload
  billingKey : Option String

/-- The fields of a peer-invoke message; a queued request has the same ones. -/
structure Request (Payload : Type) extends Invocation Payload where
  id : Nat

/-- The fields of a peer-reply message. -/
structure Reply (Payload : Type) where
  id : Nat
  errMsg : Option String
  errCode : Option String
  data : Option Payload
  platformMetering : Option Payload

inductive Message (Payload : Type) where
  | peerInvoke (request : Request Payload)
  | peerReply (reply : Reply Payload)

/-- What an invocation's callback is called with. `replied` keeps the message
the arguments were taken from: an error drops `platformMetering`. -/
inductive Answer (Payload : Type) where
  | peerGone
  | peerChannelTimeout
  | replied (message : Reply Payload) (err : Option (String × Option String))
      (data platformMetering : Option Payload)

/-- What remains to run in this turn: foreign code, or the loop of
`invalidate` over the message ids it has not reached yet. -/
inductive Frame where
  | user
  | closing (ids : List Nat)
  deriving DecidableEq

/-- The fields of the channel object. `pending` maps a message id to the
invocation whose callback it stores. -/
structure Channel (Payload : Type) where
  maxConcurrentInvokes : Option Nat
  onInvoke : Bool
  onClose : Bool
  activeSends : Int
  sendQueue : List (Request Payload)
  activeDispatches : Int
  dispatchQueue : List (Request Payload)
  msgID : Nat
  pending : List (Nat × Nat)
  closed : Bool

/-- The channel with its port, its timers and a record of what happened:
`wire` holds the ids posted and not yet answered by the peer, `running` the
dispatches whose reply callback has not been called, `owners` the invocation
behind each message id, and `givenUp` the ids that timed out while queued. -/
structure World (Payload : Type) where
  chan : Channel Payload
  timers : List (Nat × Nat)
  portClosed : Bool
  stack : List Frame
  calls : Nat
  dispatches : Nat
  wire : List Nat
  running : List (Nat × Nat)
  posted : List (Message Payload)
  answers : List (Nat × Answer Payload)
  owners : List (Nat × Nat)
  givenUp : List Nat

def opened (cap : Nat) (onInvoke onClose : Bool) : World Payload where
  chan :=
    { maxConcurrentInvokes := some cap, onInvoke := onInvoke, onClose := onClose
      activeSends := 0, sendQueue := [], activeDispatches := 0, dispatchQueue := []
      msgID := 0, pending := [], closed := false }
  timers := []
  portClosed := false
  stack := []
  calls := 0
  dispatches := 0
  wire := []
  running := []
  posted := []
  answers := []
  owners := []
  givenUp := []

/-- `maxConcurrentInvokes != null && active >= maxConcurrentInvokes` -/
def atCap (cap : Option Nat) (active : Int) : Bool :=
  match cap with
  | none => false
  | some limit => decide (active ≥ limit)

/-- Calls the callback of an invocation: foreign code runs next. -/
def answer (w : World Payload) (call : Nat) (result : Answer Payload) : World Payload :=
  { w with answers := (call, result) :: w.answers, stack := .user :: w.stack }

/-- `_sendInvoke` -/
def sendInvoke (w : World Payload) (request : Request Payload) : World Payload :=
  { w with
    chan := { w.chan with activeSends := w.chan.activeSends + 1 }
    posted := .peerInvoke request :: w.posted
    wire := request.id :: w.wire }

/-- `_drainSendQueue` -/
def drainSendQueue (w : World Payload) : World Payload :=
  match w.chan.sendQueue with
  | [] => w
  | next :: rest =>
      if atCap w.chan.maxConcurrentInvokes w.chan.activeSends then w
      else sendInvoke { w with chan := { w.chan with sendQueue := rest } } next

/-- Takes the next message id for a new invocation, stores its callback and
starts its timer. -/
def register (w : World Payload) : World Payload :=
  { w with
    chan := { w.chan with
      msgID := w.chan.msgID + 1
      pending := w.chan.pending ++ [(w.chan.msgID, w.calls)] }
    timers := w.timers ++ [(w.chan.msgID, w.calls)]
    owners := (w.chan.msgID, w.calls) :: w.owners
    calls := w.calls + 1 }

def enqueueSend (w : World Payload) (request : Request Payload) : World Payload :=
  { w with chan := { w.chan with sendQueue := w.chan.sendQueue ++ [request] } }

/-- `invoke`. The timer runs from here, whether or not the request is sent at
once. -/
def invoke (w : World Payload) (args : Invocation Payload) : World Payload :=
  if w.chan.closed then answer { w with calls := w.calls + 1 } w.calls .peerGone
  else
    let request : Request Payload := { args with id := w.chan.msgID }
    if atCap w.chan.maxConcurrentInvokes w.chan.activeSends then enqueueSend (register w) request
    else sendInvoke (register w) request

/-- The timer callback of `invoke`. -/
def expire (w : World Payload) (id call : Nat) : World Payload :=
  let queued := w.chan.sendQueue.any fun item => item.id == id
  answer
    { w with
      chan := { w.chan with
        pending := w.chan.pending.filter fun entry => entry.1 != id
        sendQueue := w.chan.sendQueue.filter fun item => item.id != id }
      timers := w.timers.filter fun entry => entry.1 != id
      givenUp := if queued then id :: w.givenUp else w.givenUp }
    call .peerChannelTimeout

/-- `_dispatchInvoke`: the handler is foreign code, given a reply callback of
its own (`dispatches` numbers them). -/
def dispatchInvoke (w : World Payload) (message : Request Payload) : World Payload :=
  { w with
    chan := { w.chan with activeDispatches := w.chan.activeDispatches + 1 }
    running := (w.dispatches, message.id) :: w.running
    dispatches := w.dispatches + 1
    stack := .user :: w.stack }

/-- `_drainDispatchQueue` -/
def drainDispatchQueue (w : World Payload) : World Payload :=
  match w.chan.dispatchQueue with
  | [] => w
  | next :: rest =>
      if atCap w.chan.maxConcurrentInvokes w.chan.activeDispatches then w
      else dispatchInvoke { w with chan := { w.chan with dispatchQueue := rest } } next

def noHandlerReply (id : Nat) : Reply Payload :=
  { id := id, errMsg := some "No peer-invoke handler registered on the remote side"
    errCode := some "PEER_NO_HANDLER", data := none, platformMetering := none }

/-- `_handleInvoke` -/
def handleInvoke (w : World Payload) (message : Request Payload) : World Payload :=
  if w.chan.onInvoke = false then
    { w with posted := .peerReply (noHandlerReply message.id) :: w.posted }
  else if atCap w.chan.maxConcurrentInvokes w.chan.activeDispatches then
    { w with chan := { w.chan with dispatchQueue := w.chan.dispatchQueue ++ [message] } }
  else dispatchInvoke w message

/-- The reply callback handed to `onInvoke` for one dispatch. -/
def replyCallback (w : World Payload) (token id : Nat) (err : Option (String × Option String))
    (data platformMetering : Option Payload) : World Payload :=
  drainDispatchQueue
    { w with
      chan := { w.chan with activeDispatches := w.chan.activeDispatches - 1 }
      running := w.running.erase (token, id)
      posted := .peerReply ⟨id, err.map Prod.fst, err.bind Prod.snd, data, platformMetering⟩ ::
        w.posted }

/-- The arguments `_handleReply` gives the callback. -/
def replyAnswer (message : Reply Payload) : Answer Payload :=
  match message.errMsg with
  | some text => .replied message (some (text, message.errCode)) message.data none
  | none => .replied message none message.data message.platformMetering

/-- The message id's entry of `pending` is removed, its timer cleared and its
callback called; an id without an entry has timed out already. -/
def settleReply (w : World Payload) (message : Reply Payload) : World Payload :=
  match w.chan.pending.find? fun entry => entry.1 == message.id with
  | none => w
  | some entry =>
      answer
        { w with
          chan := { w.chan with pending := w.chan.pending.filter fun e => e.1 != message.id }
          timers := w.timers.filter fun e => e.1 != message.id }
        entry.2 (replyAnswer message)

def sendAnswered (w : World Payload) (id : Nat) : World Payload :=
  { w with
    chan := { w.chan with activeSends := w.chan.activeSends - 1 }
    wire := w.wire.erase id }

/-- `_handleReply`: the slot is given on before the callback runs. -/
def handleReply (w : World Payload) (message : Reply Payload) : World Payload :=
  settleReply (drainSendQueue (sendAnswered w message.id)) message

/-- `invalidate` up to its loop over the pending ids, which run in id order. -/
def invalidate (w : World Payload) : World Payload :=
  if w.chan.closed then w
  else
    { w with
      chan := { w.chan with closed := true }
      stack := .closing (w.chan.pending.map Prod.fst) :: w.stack }

def failPending (w : World Payload) (id : Nat) : World Payload :=
  match w.chan.pending.find? fun entry => entry.1 == id with
  | none => w
  | some entry =>
      answer { w with timers := w.timers.filter fun e => e.1 != id } entry.2 .peerGone

/-- One turn of that loop, or what follows it when no id is left. -/
def closeNext (w : World Payload) (ids : List Nat) (rest : List Frame) : World Payload :=
  match ids with
  | id :: later => failPending { w with stack := .closing later :: rest } id
  | [] =>
      { w with
        chan := { w.chan with pending := [], sendQueue := [], dispatchQueue := [] }
        portClosed := true
        stack := if w.chan.onClose then .user :: rest else rest }

/-- Foreign code may run: at the start of a turn, or in a callback. -/
def foreignTurn (w : World Payload) : Prop :=
  w.stack = [] ∨ ∃ rest, w.stack = .user :: rest

/-- Every event of one end. A peer-reply needs an unanswered request on the
wire: the peer sends no other replies. -/
inductive Step : World Payload → World Payload → Prop where
  | invoke (w : World Payload) (args : Invocation Payload) (free : foreignTurn w) :
      Step w (invoke w args)
  | reply (w : World Payload) (token id : Nat) (err : Option (String × Option String))
      (data platformMetering : Option Payload) (free : foreignTurn w)
      (unanswered : (token, id) ∈ w.running) :
      Step w (replyCallback w token id err data platformMetering)
  | invalidate (w : World Payload) (free : foreignTurn w) : Step w (invalidate w)
  | returned (w : World Payload) (rest : List Frame) (top : w.stack = .user :: rest) :
      Step w { w with stack := rest }
  | closing (w : World Payload) (ids : List Nat) (rest : List Frame)
      (top : w.stack = .closing ids :: rest) : Step w (closeNext w ids rest)
  | deliverInvoke (w : World Payload) (message : Request Payload)
      (idle : w.stack = []) (live : w.portClosed = false) : Step w (handleInvoke w message)
  | deliverReply (w : World Payload) (message : Reply Payload)
      (idle : w.stack = []) (live : w.portClosed = false) (sent : message.id ∈ w.wire) :
      Step w (handleReply w message)
  | expire (w : World Payload) (id call : Nat) (idle : w.stack = [])
      (armed : (id, call) ∈ w.timers) : Step w (expire w id call)

abbrev Reachable (cap : Nat) (onInvoke onClose : Bool) (w : World Payload) : Prop :=
  Relation.ReflTransGen Step (opened cap onInvoke onClose) w

/-! Caps and queues. A counter is the length of what it counts, so the bounds
follow from the guards alone and survive any number of nested callbacks. -/
section Backpressure

structure SendBound (cap : Nat) (w : World Payload) : Prop where
  capped : w.chan.maxConcurrentInvokes = some cap
  counted : w.chan.activeSends = w.wire.length
  bounded : w.wire.length ≤ cap
  full : w.chan.sendQueue ≠ [] → w.wire.length = cap

structure DispatchBound (cap : Nat) (w : World Payload) : Prop where
  capped : w.chan.maxConcurrentInvokes = some cap
  counted : w.chan.activeDispatches = w.running.length
  bounded : w.running.length ≤ cap
  full : w.chan.dispatchQueue ≠ [] → w.running.length = cap

theorem at_cap_iff (cap : Nat) (active : Int) : atCap (some cap) active = true ↔ (cap : Int) ≤ active := by
  simp [atCap]

theorem invoke_send_bound (cap : Nat) (w : World Payload) (args : Invocation Payload)
    (bound : SendBound cap w) : SendBound cap (invoke w args) := by
  have less := bound.bounded
  have count := bound.counted
  unfold invoke
  split
  · exact ⟨bound.capped, bound.counted, bound.bounded, bound.full⟩
  simp only
  split
  · rename_i busy
    have reached := (at_cap_iff cap w.chan.activeSends).mp (bound.capped ▸ busy)
    have exactCap : w.wire.length = cap := by omega
    exact ⟨bound.capped, bound.counted, bound.bounded, fun _ => exactCap⟩
  · rename_i idle
    have room := mt (at_cap_iff cap w.chan.activeSends).mpr (bound.capped ▸ idle)
    refine ⟨bound.capped, ?_, ?_, fun waiting => ?_⟩
    · simp only [sendInvoke, register, List.length_cons]; omega
    · simp only [sendInvoke, register, List.length_cons]; omega
    · have := bound.full waiting
      omega

theorem drain_send_bound (cap : Nat) (w : World Payload) (message : Reply Payload)
    (bound : SendBound cap w) (sent : message.id ∈ w.wire) :
    SendBound cap (drainSendQueue (sendAnswered w message.id)) := by
  have shorter : (w.wire.erase message.id).length + 1 = w.wire.length := by
    have := List.length_erase_of_mem sent
    have := List.length_pos_of_mem sent
    omega
  have less := bound.bounded
  have count := bound.counted
  unfold drainSendQueue sendAnswered
  cases waiting : w.chan.sendQueue with
  | nil => exact ⟨bound.capped, by simp only; omega, by simp only; omega, by simp [waiting]⟩
  | cons next rest =>
      have reached := bound.full (by simp [waiting])
      have free : atCap w.chan.maxConcurrentInvokes (w.chan.activeSends - 1) ≠ true := by
        rw [bound.capped, Ne, at_cap_iff]
        omega
      simp only [if_neg free]
      exact ⟨bound.capped, by simp only [sendInvoke, List.length_cons]; omega,
        by simp only [sendInvoke, List.length_cons]; omega,
        by simp only [sendInvoke, List.length_cons]; omega⟩

theorem settle_reply_send_bound (cap : Nat) (w : World Payload) (message : Reply Payload)
    (bound : SendBound cap w) : SendBound cap (settleReply w message) := by
  unfold settleReply
  split
  · exact bound
  · exact ⟨bound.capped, bound.counted, bound.bounded, bound.full⟩

theorem step_send_bound (cap : Nat) {w v : World Payload} (step : Step w v)
    (bound : SendBound cap w) : SendBound cap v := by
  cases step with
  | invoke args => exact invoke_send_bound cap w args bound
  | reply =>
      unfold replyCallback drainDispatchQueue
      split
      · exact ⟨bound.capped, bound.counted, bound.bounded, bound.full⟩
      · split <;> exact ⟨bound.capped, bound.counted, bound.bounded, bound.full⟩
  | invalidate =>
      unfold invalidate
      split
      · exact bound
      · exact ⟨bound.capped, bound.counted, bound.bounded, bound.full⟩
  | returned => exact ⟨bound.capped, bound.counted, bound.bounded, bound.full⟩
  | closing ids rest =>
      unfold closeNext failPending
      split
      · split <;> exact ⟨bound.capped, bound.counted, bound.bounded, bound.full⟩
      · exact ⟨bound.capped, bound.counted, bound.bounded, by simp⟩
  | deliverInvoke =>
      unfold handleInvoke
      split
      · exact ⟨bound.capped, bound.counted, bound.bounded, bound.full⟩
      · split <;> exact ⟨bound.capped, bound.counted, bound.bounded, bound.full⟩
  | deliverReply message _ _ sent =>
      exact settle_reply_send_bound cap _ message (drain_send_bound cap w message bound sent)
  | expire id call =>
      refine ⟨bound.capped, bound.counted, bound.bounded, fun waiting => bound.full ?_⟩
      rintro empty
      simp [expire, answer, empty] at waiting

theorem reply_dispatch_bound (cap : Nat) (w : World Payload) (token id : Nat)
    (err : Option (String × Option String)) (data metering : Option Payload)
    (bound : DispatchBound cap w) (unanswered : (token, id) ∈ w.running) :
    DispatchBound cap (replyCallback w token id err data metering) := by
  have shorter : (w.running.erase (token, id)).length + 1 = w.running.length := by
    have := List.length_erase_of_mem unanswered
    have := List.length_pos_of_mem unanswered
    omega
  have less := bound.bounded
  have count := bound.counted
  unfold replyCallback drainDispatchQueue
  cases waiting : w.chan.dispatchQueue with
  | nil => exact ⟨bound.capped, by simp only; omega, by simp only; omega, by simp [waiting]⟩
  | cons next rest =>
      have reached := bound.full (by simp [waiting])
      have free : atCap w.chan.maxConcurrentInvokes (w.chan.activeDispatches - 1) ≠ true := by
        rw [bound.capped, Ne, at_cap_iff]
        omega
      simp only [if_neg free]
      exact ⟨bound.capped, by simp only [dispatchInvoke, List.length_cons]; omega,
        by simp only [dispatchInvoke, List.length_cons]; omega,
        by simp only [dispatchInvoke, List.length_cons]; omega⟩

theorem handle_invoke_dispatch_bound (cap : Nat) (w : World Payload) (message : Request Payload)
    (bound : DispatchBound cap w) : DispatchBound cap (handleInvoke w message) := by
  have less := bound.bounded
  have count := bound.counted
  unfold handleInvoke
  split
  · exact ⟨bound.capped, bound.counted, bound.bounded, bound.full⟩
  split
  · rename_i busy
    have reached := (at_cap_iff cap w.chan.activeDispatches).mp (bound.capped ▸ busy)
    exact ⟨bound.capped, bound.counted, bound.bounded, fun _ => by simp only; omega⟩
  · rename_i idle
    have room := mt (at_cap_iff cap w.chan.activeDispatches).mpr (bound.capped ▸ idle)
    refine ⟨bound.capped, by simp only [dispatchInvoke, List.length_cons]; omega,
      by simp only [dispatchInvoke, List.length_cons]; omega, fun waiting => ?_⟩
    have := bound.full waiting
    omega

theorem step_dispatch_bound (cap : Nat) {w v : World Payload} (step : Step w v)
    (bound : DispatchBound cap w) : DispatchBound cap v := by
  cases step with
  | invoke =>
      unfold invoke
      simp only
      split
      · exact ⟨bound.capped, bound.counted, bound.bounded, bound.full⟩
      · split <;> exact ⟨bound.capped, bound.counted, bound.bounded, bound.full⟩
  | reply token id err data metering _ unanswered =>
      exact reply_dispatch_bound cap w token id err data metering bound unanswered
  | invalidate =>
      unfold invalidate
      split
      · exact bound
      · exact ⟨bound.capped, bound.counted, bound.bounded, bound.full⟩
  | returned => exact ⟨bound.capped, bound.counted, bound.bounded, bound.full⟩
  | closing ids rest =>
      unfold closeNext failPending
      split
      · split <;> exact ⟨bound.capped, bound.counted, bound.bounded, bound.full⟩
      · exact ⟨bound.capped, bound.counted, bound.bounded, by simp⟩
  | deliverInvoke message => exact handle_invoke_dispatch_bound cap w message bound
  | deliverReply message =>
      have drained : DispatchBound cap (drainSendQueue (sendAnswered w message.id)) := by
        unfold drainSendQueue
        split
        · exact ⟨bound.capped, bound.counted, bound.bounded, bound.full⟩
        · split <;> exact ⟨bound.capped, bound.counted, bound.bounded, bound.full⟩
      unfold handleReply settleReply
      split
      · exact drained
      · exact ⟨drained.capped, drained.counted, drained.bounded, drained.full⟩
  | expire => exact ⟨bound.capped, bound.counted, bound.bounded, bound.full⟩

end Backpressure

/-! Correlation. An invocation is awaited by exactly one armed timer until its
callback is called. Inside `invalidate` the timers are the part of `pending`
the loop has not reached, which is why `pending` itself may still hold calls that
have been told `PEER_GONE`. -/
section Correlation

def OwnAnswer (owners : List (Nat × Nat)) (item : Nat × Answer Payload) : Prop :=
  item.2 = .peerGone ∨ item.2 = .peerChannelTimeout ∨
    ∃ message : Reply Payload, item.2 = replyAnswer message ∧ (message.id, item.1) ∈ owners

inductive Phase (w : World Payload) : Prop where
  | live (openEnd : w.chan.closed = false) (flat : ∀ frame ∈ w.stack, frame = .user)
      (timed : w.timers = w.chan.pending)
  | closing (shut : w.chan.closed = true) (above below : List Frame)
      (looping : w.stack = above ++ .closing (w.timers.map Prod.fst) :: below)
      (flatAbove : ∀ frame ∈ above, frame = .user) (flatBelow : ∀ frame ∈ below, frame = .user)
  | dead (shut : w.chan.closed = true) (flat : ∀ frame ∈ w.stack, frame = .user)
      (untimed : w.timers = []) (none_pending : w.chan.pending = [])
      (none_queued : w.chan.sendQueue = [] ∧ w.chan.dispatchQueue = [])
      (silent : w.portClosed = true)

structure Correlated (w : World Payload) : Prop where
  single : (w.timers.map Prod.snd ++ w.answers.map Prod.fst).Nodup
  fresh : ∀ call ∈ w.timers.map Prod.snd ++ w.answers.map Prod.fst, call < w.calls
  keyed : (w.chan.pending.map Prod.fst).Nodup
  below : ∀ entry ∈ w.chan.pending, entry.1 < w.chan.msgID
  owned : ∀ entry ∈ w.chan.pending, entry ∈ w.owners
  kept : w.timers.Sublist w.chan.pending
  own : ∀ item ∈ w.answers, OwnAnswer w.owners item
  phase : Phase w

/-- The phase reads only these fields; the queues matter once the end is dead. -/
theorem phase_frame {w v : World Payload} (phase : Phase w)
    (closed : v.chan.closed = w.chan.closed) (stack : v.stack = w.stack)
    (timers : v.timers = w.timers) (pending : v.chan.pending = w.chan.pending)
    (port : v.portClosed = w.portClosed)
    (queues : w.chan.closed = true → w.chan.sendQueue = [] ∧ w.chan.dispatchQueue = [] →
      v.chan.sendQueue = [] ∧ v.chan.dispatchQueue = []) : Phase v := by
  cases phase with
  | live openEnd flat timed =>
      exact .live (closed.trans openEnd) (stack ▸ flat) (timers.trans (timed.trans pending.symm))
  | closing shut above below looping flatAbove flatBelow =>
      exact .closing (closed.trans shut) above below (by rw [stack, timers, looping]) flatAbove flatBelow
  | dead shut flat untimed none_pending none_queued silent =>
      exact .dead (closed.trans shut) (stack ▸ flat) (timers.trans untimed)
        (pending.trans none_pending) (queues shut none_queued) (port.trans silent)

theorem correlated_frame {w v : World Payload} (correlated : Correlated w)
    (timers : v.timers = w.timers) (answers : v.answers = w.answers) (calls : v.calls = w.calls)
    (pending : v.chan.pending = w.chan.pending) (ids : v.chan.msgID = w.chan.msgID)
    (owners : v.owners = w.owners) (phase : Phase v) : Correlated v where
  single := by rw [timers, answers]; exact correlated.single
  fresh := by rw [timers, answers, calls]; exact correlated.fresh
  keyed := by rw [pending]; exact correlated.keyed
  below := by rw [pending, ids]; exact correlated.below
  owned := by rw [pending, owners]; exact correlated.owned
  kept := by rw [timers, pending]; exact correlated.kept
  own := by rw [answers, owners]; exact correlated.own
  phase := phase

theorem phase_push_user (w : World Payload) (phase : Phase w) :
    Phase { w with stack := .user :: w.stack } := by
  cases phase with
  | live openEnd flat timed => exact .live openEnd (by simpa using flat) timed
  | closing shut above below looping flatAbove flatBelow =>
      exact .closing shut (.user :: above) below (by simp [looping]) (by simpa using flatAbove) flatBelow
  | dead shut flat untimed none_pending none_queued silent =>
      exact .dead shut (by simpa using flat) untimed none_pending none_queued silent

theorem phase_pop_user (w : World Payload) (rest : List Frame) (top : w.stack = .user :: rest)
    (phase : Phase w) : Phase { w with stack := rest } := by
  cases phase with
  | live openEnd flat timed =>
      exact .live openEnd (fun frame member => flat frame (by simp [top, member])) timed
  | closing shut above below looping flatAbove flatBelow =>
      rw [top] at looping
      cases above with
      | nil => simp at looping
      | cons frame above =>
          simp only [List.cons_append, List.cons.injEq] at looping
          exact .closing shut above below looping.2
            (fun f member => flatAbove f (List.mem_cons_of_mem _ member)) flatBelow
  | dead shut flat untimed none_pending none_queued silent =>
      exact .dead shut (fun frame member => flat frame (by simp [top, member]))
        untimed none_pending none_queued silent

/-- An idle turn on an open port belongs to a channel that was never closed. -/
theorem idle_live (w : World Payload) (phase : Phase w) (idle : w.stack = [])
    (pendingWork : w.portClosed = false ∨ w.timers ≠ []) :
    w.chan.closed = false ∧ w.timers = w.chan.pending := by
  cases phase with
  | live openEnd flat timed => exact ⟨openEnd, timed⟩
  | closing shut above below looping => simp [idle] at looping
  | dead shut flat untimed none_pending none_queued silent => simp_all

/-- Telling an awaited call removes it from the timers and records it once. -/
theorem told_once (timers : List (Nat × Nat)) (told : List Nat) (id call : Nat)
    (single : (timers.map Prod.snd ++ told).Nodup) (awaited : (id, call) ∈ timers) :
    ((timers.filter fun e => e.1 != id).map Prod.snd ++ call :: told).Nodup := by
  rw [List.nodup_append] at single ⊢
  obtain ⟨timersNodup, toldNodup, apart⟩ := single
  have callAwaited : call ∈ timers.map Prod.snd := List.mem_map.mpr ⟨_, awaited, rfl⟩
  refine ⟨timersNodup.sublist (List.filter_sublist.map _),
    List.nodup_cons.mpr ⟨fun member => apart call callAwaited call member rfl, toldNodup⟩, ?_⟩
  intro a kept b other same
  subst same
  obtain ⟨entry, filtered, rfl⟩ := List.mem_map.mp kept
  obtain ⟨inTimers, differs⟩ := List.mem_filter.mp filtered
  rcases List.mem_cons.mp other with sameCall | inTold
  · have equal := List.inj_on_of_nodup_map timersNodup inTimers awaited sameCall
    simp [equal] at differs
  · exact apart _ (List.mem_map_of_mem inTimers) _ inTold rfl

theorem told_fresh (timers : List (Nat × Nat)) (told : List Nat) (id call bound : Nat)
    (fresh : ∀ c ∈ timers.map Prod.snd ++ told, c < bound) (awaited : (id, call) ∈ timers) :
    ∀ c ∈ (timers.filter fun e => e.1 != id).map Prod.snd ++ call :: told, c < bound := by
  intro c member
  rcases List.mem_append.mp member with kept | answered
  · exact fresh c (List.mem_append_left _ ((List.filter_sublist.map _).subset kept))
  · rcases List.mem_cons.mp answered with same | before
    · exact fresh c (List.mem_append_left _ (List.mem_map.mpr ⟨_, awaited, same.symm⟩))
    · exact fresh c (List.mem_append_right _ before)

theorem found_entry {entries : List (Nat × Nat)} {id : Nat} {entry : Nat × Nat}
    (found : entries.find? (fun e => e.1 == id) = some entry) : (id, entry.2) ∈ entries := by
  have member := List.mem_of_find?_eq_some found
  have same : entry.1 = id := by simpa using List.find?_some found
  rwa [← same]

theorem register_correlated (w : World Payload) (correlated : Correlated w)
    (openEnd : w.chan.closed = false) : Correlated (register w) := by
  have fresh := correlated.fresh
  have timed : w.timers = w.chan.pending ∧ ∀ frame ∈ w.stack, frame = .user := by
    cases correlated.phase with
    | live _ flat timed => exact ⟨timed, flat⟩
    | closing shut => simp [openEnd] at shut
    | dead shut => simp [openEnd] at shut
  have newCall : w.calls ∉ w.timers.map Prod.snd ++ w.answers.map Prod.fst :=
    fun member => Nat.lt_irrefl _ (fresh _ member)
  have newId : w.chan.msgID ∉ w.chan.pending.map Prod.fst := by
    intro member
    obtain ⟨entry, inPending, same⟩ := List.mem_map.mp member
    have := correlated.below entry inPending
    omega
  refine ⟨?_, ?_, ?_, ?_, ?_, ?_, ?_, ?_⟩
  · simp only [register, List.map_append, List.map_cons, List.map_nil, List.append_assoc,
      List.singleton_append]
    exact (List.perm_middle.nodup_iff).mpr (List.nodup_cons.mpr ⟨newCall, correlated.single⟩)
  · intro call member
    simp only [register, List.map_append, List.map_cons, List.map_nil, List.mem_append,
      List.mem_singleton, or_assoc] at member ⊢
    rcases member with kept | same | answered
    · exact Nat.lt_succ_of_lt (fresh call (List.mem_append_left _ kept))
    · omega
    · exact Nat.lt_succ_of_lt (fresh call (List.mem_append_right _ answered))
  · simp only [register, List.map_append, List.map_cons, List.map_nil]
    exact List.nodup_append.mpr ⟨correlated.keyed, List.nodup_singleton _, by
      intro a inPending b same equal
      rw [List.mem_singleton] at same
      exact newId (same ▸ equal ▸ inPending)⟩
  · intro entry member
    simp only [register, List.mem_append, List.mem_singleton] at member ⊢
    rcases member with old | same
    · exact Nat.lt_succ_of_lt (correlated.below entry old)
    · simp [same]
  · intro entry member
    simp only [register, List.mem_append, List.mem_singleton] at member
    exact List.mem_cons.mpr (member.symm.imp_right (correlated.owned entry))
  · simp only [register, timed.1]
    exact List.Sublist.refl _
  · intro item member
    rcases correlated.own item member with gone | late | ⟨message, same, owner⟩
    · exact Or.inl gone
    · exact Or.inr (Or.inl late)
    · exact Or.inr (Or.inr ⟨message, same, List.mem_cons_of_mem _ owner⟩)
  · exact .live openEnd timed.2 (by simp [register, timed.1])

theorem invoke_correlated (w : World Payload) (args : Invocation Payload)
    (correlated : Correlated w) : Correlated (invoke w args) := by
  unfold invoke
  by_cases shut : w.chan.closed = true
  · have newCall : w.calls ∉ w.timers.map Prod.snd ++ w.answers.map Prod.fst :=
      fun member => Nat.lt_irrefl _ (correlated.fresh _ member)
    simp only [shut, if_true]
    refine ⟨?_, ?_, correlated.keyed, correlated.below, correlated.owned, correlated.kept, ?_, ?_⟩
    · exact (List.perm_middle.nodup_iff).mpr (List.nodup_cons.mpr ⟨newCall, correlated.single⟩)
    · intro call member
      simp only [answer, List.map_cons, List.mem_append, List.mem_cons] at member ⊢
      rcases member with kept | same | answered
      · exact Nat.lt_succ_of_lt (correlated.fresh call (List.mem_append_left _ kept))
      · omega
      · exact Nat.lt_succ_of_lt (correlated.fresh call (List.mem_append_right _ answered))
    · intro item member
      rcases List.mem_cons.mp member with same | before
      · exact Or.inl (by rw [same])
      · exact correlated.own item before
    · exact phase_push_user { w with
        calls := w.calls + 1, answers := (w.calls, .peerGone) :: w.answers }
        (phase_frame correlated.phase rfl rfl rfl rfl rfl fun _ queued => queued)
  · have openEnd : w.chan.closed = false := by simpa using shut
    have registered := register_correlated w correlated openEnd
    have stillOpen : (register w).chan.closed = true → False := by simp [register, openEnd]
    rw [if_neg shut]
    simp only
    split <;>
      exact correlated_frame registered rfl rfl rfl rfl rfl rfl
        (phase_frame registered.phase rfl rfl rfl rfl rfl fun closed => (stillOpen closed).elim)

/-- A callback is called for an awaited call, whose timer goes with it. -/
theorem answer_correlated (w : World Payload) (id call : Nat) (result : Answer Payload)
    (entries : List (Nat × Nat)) (correlated : Correlated w) (awaited : (id, call) ∈ w.timers)
    (shape : entries = w.chan.pending ∨ entries = w.chan.pending.filter fun e => e.1 != id)
    (kept : (w.timers.filter fun e => e.1 != id).Sublist entries)
    (own : OwnAnswer w.owners (call, result))
    (queue : List (Request Payload)) (givenUp : List Nat) (stack : List Frame)
    (phase : Phase { w with
      chan := { w.chan with pending := entries, sendQueue := queue }
      timers := w.timers.filter fun e => e.1 != id
      givenUp := givenUp, stack := stack }) :
    Correlated (answer { w with
      chan := { w.chan with pending := entries, sendQueue := queue }
      timers := w.timers.filter fun e => e.1 != id
      givenUp := givenUp, stack := stack } call result) := by
  have sub : entries.Sublist w.chan.pending := by
    rcases shape with same | filtered
    · rw [same]
    · rw [filtered]; exact List.filter_sublist
  refine ⟨?_, ?_, correlated.keyed.sublist (sub.map _), ?_, ?_, kept, ?_, ?_⟩
  · exact told_once w.timers _ id call correlated.single awaited
  · exact told_fresh w.timers _ id call w.calls correlated.fresh awaited
  · exact fun entry member => correlated.below entry (sub.subset member)
  · exact fun entry member => correlated.owned entry (sub.subset member)
  · intro item member
    rcases List.mem_cons.mp member with same | before
    · rw [same]; exact own
    · exact correlated.own item before
  · exact phase_push_user { w with
      chan := { w.chan with pending := entries, sendQueue := queue }
      timers := w.timers.filter fun e => e.1 != id
      givenUp := givenUp, stack := stack, answers := (call, result) :: w.answers }
      (phase_frame phase rfl rfl rfl rfl rfl fun _ queued => queued)

theorem expire_correlated (w : World Payload) (id call : Nat) (correlated : Correlated w)
    (idle : w.stack = []) (armed : (id, call) ∈ w.timers) : Correlated (expire w id call) := by
  obtain ⟨openEnd, timed⟩ := idle_live w correlated.phase idle (Or.inr (List.ne_nil_of_mem armed))
  exact answer_correlated w id call _ _ correlated armed (Or.inr rfl) (correlated.kept.filter _)
    (Or.inr (Or.inl rfl)) _ _ _ (.live openEnd (by simp [idle]) (by simp [timed]))

theorem settle_reply_correlated (w : World Payload) (message : Reply Payload)
    (correlated : Correlated w) (idle : w.stack = []) (live : w.portClosed = false) :
    Correlated (settleReply w message) := by
  obtain ⟨openEnd, timed⟩ := idle_live w correlated.phase idle (Or.inl live)
  unfold settleReply
  split
  · exact correlated
  · rename_i entry found
    have stored := found_entry found
    exact answer_correlated w message.id entry.2 _ _ correlated (timed ▸ stored) (Or.inr rfl)
      (correlated.kept.filter _) (Or.inr (Or.inr ⟨message, rfl, correlated.owned _ stored⟩)) _ _ _
      (.live openEnd (by simp [idle]) (by simp [timed]))

theorem drain_send_correlated (w : World Payload) (id : Nat) (correlated : Correlated w)
    (idle : w.stack = []) (live : w.portClosed = false) :
    Correlated (drainSendQueue (sendAnswered w id)) := by
  obtain ⟨openEnd, timed⟩ := idle_live w correlated.phase idle (Or.inl live)
  unfold drainSendQueue
  split
  · exact correlated_frame correlated rfl rfl rfl rfl rfl rfl
      (.live openEnd (by simp [sendAnswered, idle]) timed)
  · split <;>
      exact correlated_frame correlated rfl rfl rfl rfl rfl rfl
        (.live openEnd (by simp [sendInvoke, sendAnswered, idle]) timed)

theorem invalidate_correlated (w : World Payload) (correlated : Correlated w) :
    Correlated (invalidate w) := by
  unfold invalidate
  split
  · exact correlated
  · rename_i openEnd
    refine correlated_frame correlated rfl rfl rfl rfl rfl rfl ?_
    cases correlated.phase with
    | live _ flat timed => exact .closing rfl [] w.stack (by simp [timed]) (by simp) flat
    | closing shut => exact absurd shut openEnd
    | dead shut => exact absurd shut openEnd

/-- Only the loop of `invalidate` can be on top as a `closing` frame, and its
ids are those of the timers not yet cleared. -/
theorem closing_top (w : World Payload) (ids : List Nat) (rest : List Frame) (phase : Phase w)
    (top : w.stack = .closing ids :: rest) :
    w.chan.closed = true ∧ ids = w.timers.map Prod.fst ∧ ∀ frame ∈ rest, frame = .user := by
  cases phase with
  | live _ flat => simpa using flat (.closing ids) (by simp [top])
  | closing shut above below looping flatAbove flatBelow =>
      rw [top] at looping
      cases above with
      | nil =>
          simp only [List.nil_append, List.cons.injEq, Frame.closing.injEq] at looping
          exact ⟨shut, looping.1, looping.2 ▸ flatBelow⟩
      | cons frame above =>
          simp only [List.cons_append, List.cons.injEq] at looping
          have := flatAbove frame (by simp)
          simp [this] at looping
  | dead _ flat => simpa using flat (.closing ids) (by simp [top])

theorem close_next_correlated (w : World Payload) (ids : List Nat) (rest : List Frame)
    (correlated : Correlated w) (top : w.stack = .closing ids :: rest) :
    Correlated (closeNext w ids rest) := by
  obtain ⟨shut, sameIds, flat⟩ := closing_top w ids rest correlated.phase top
  have timersKeyed : (w.timers.map Prod.fst).Nodup :=
    correlated.keyed.sublist (correlated.kept.map _)
  unfold closeNext
  cases ids with
  | nil =>
      have untimed : w.timers = [] := by simpa using sameIds.symm
      refine ⟨correlated.single, correlated.fresh, by simp, by simp, by simp, ?_, correlated.own,
        .dead shut ?_ untimed rfl ⟨rfl, rfl⟩ rfl⟩
      · simp [untimed]
      · simp only
        split
        · simpa using flat
        · exact flat
  | cons id later =>
      cases timersShape : w.timers with
      | nil => simp [timersShape] at sameIds
      | cons head others =>
          rw [timersShape] at sameIds timersKeyed
          simp only [List.map_cons, List.cons.injEq] at sameIds
          have headOnly : w.timers.filter (fun e => e.1 != id) = others := by
            have kept : others.filter (fun e => e.1 != id) = others := by
              rw [List.filter_eq_self]
              intro e member
              have apart := (List.nodup_cons.mp timersKeyed).1
              simp only [bne_iff_ne, ne_eq]
              rintro same
              exact apart (List.mem_map.mpr ⟨e, member, same.trans sameIds.1⟩)
            rw [timersShape, List.filter_cons_of_neg (by simp [sameIds.1]), kept]
          have awaited : (id, head.2) ∈ w.timers := by
            rw [sameIds.1, timersShape]
            exact List.mem_cons_self
          have stored : (id, head.2) ∈ w.chan.pending := correlated.kept.subset awaited
          unfold failPending
          simp only
          split
          · rename_i missing
            have := List.find?_eq_none.mp missing _ stored
            simp at this
          · rename_i entry found
            have unique : entry.2 = head.2 := by
              have := List.inj_on_of_nodup_map correlated.keyed (found_entry found) stored rfl
              simpa using this
            rw [unique, ← timersShape]
            refine answer_correlated w id head.2 .peerGone w.chan.pending correlated awaited
              (Or.inl rfl) ?_ (Or.inl rfl) w.chan.sendQueue w.givenUp (.closing later :: rest)
              (.closing shut [] rest ?_ (by simp) flat)
            · exact List.filter_sublist.trans correlated.kept
            · simp [headOnly, sameIds.2]

theorem step_correlated {w v : World Payload} (step : Step w v) (correlated : Correlated w) :
    Correlated v := by
  cases step with
  | invoke args => exact invoke_correlated w args correlated
  | reply token id err data metering =>
      unfold replyCallback drainDispatchQueue
      split
      · exact correlated_frame correlated rfl rfl rfl rfl rfl rfl
          (phase_frame correlated.phase rfl rfl rfl rfl rfl fun _ queued => queued)
      · rename_i next later waiting
        split
        · exact correlated_frame correlated rfl rfl rfl rfl rfl rfl
            (phase_frame correlated.phase rfl rfl rfl rfl rfl fun _ queued => queued)
        · refine correlated_frame correlated rfl rfl rfl rfl rfl rfl ?_
          exact phase_frame (phase_push_user w correlated.phase) rfl rfl rfl rfl rfl
            fun _ queued => by simp_all
  | invalidate => exact invalidate_correlated w correlated
  | returned rest top =>
      exact correlated_frame correlated rfl rfl rfl rfl rfl rfl
        (phase_pop_user w rest top correlated.phase)
  | closing ids rest top => exact close_next_correlated w ids rest correlated top
  | deliverInvoke message idle live =>
      obtain ⟨openEnd, timed⟩ := idle_live w correlated.phase idle (Or.inl live)
      unfold handleInvoke
      split
      · exact correlated_frame correlated rfl rfl rfl rfl rfl rfl
          (.live openEnd (by simp [idle]) timed)
      · split <;>
          exact correlated_frame correlated rfl rfl rfl rfl rfl rfl
            (.live openEnd (by simp [dispatchInvoke, idle]) timed)
  | deliverReply message idle live =>
      have drained := drain_send_correlated w message.id correlated idle live
      refine settle_reply_correlated _ message drained ?_ ?_
      · unfold drainSendQueue
        split
        · exact idle
        · split <;> exact idle
      · unfold drainSendQueue
        split
        · exact live
        · split <;> exact live
  | expire id call idle armed => exact expire_correlated w id call correlated idle armed

end Correlation

/-! Requests that were given up while queued. An id is posted at most once and
comes from the queue or from a fresh invocation, never from an id given up. -/
section Sending

def sentId : Message Payload → Option Nat
  | .peerInvoke request => some request.id
  | .peerReply _ => none

theorem sent_reply (reply : Reply Payload) (posted : List (Message Payload)) :
    (.peerReply reply :: posted).filterMap sentId = posted.filterMap sentId :=
  List.filterMap_cons_none rfl

structure Sending (w : World Payload) : Prop where
  once : (w.posted.filterMap sentId ++ w.chan.sendQueue.map (·.id)).Nodup
  known : ∀ id ∈ w.posted.filterMap sentId ++ w.chan.sendQueue.map (·.id), id < w.chan.msgID
  apart : ∀ id ∈ w.givenUp,
    id < w.chan.msgID ∧ id ∉ w.posted.filterMap sentId ++ w.chan.sendQueue.map (·.id)

theorem sending_frame {w v : World Payload} (sending : Sending w)
    (posted : v.posted.filterMap sentId = w.posted.filterMap sentId)
    (queue : v.chan.sendQueue.Sublist w.chan.sendQueue)
    (ids : v.chan.msgID = w.chan.msgID) (givenUp : v.givenUp = w.givenUp) : Sending v := by
  have sub : (v.posted.filterMap sentId ++ v.chan.sendQueue.map (·.id)).Sublist
      (w.posted.filterMap sentId ++ w.chan.sendQueue.map (·.id)) := by
    rw [posted]
    exact (queue.map _).append_left _
  refine ⟨sending.once.sublist sub, fun id member => ?_, fun id member => ?_⟩
  · rw [ids]; exact sending.known id (sub.subset member)
  · rw [givenUp] at member
    rw [ids]
    exact ⟨(sending.apart id member).1, fun inside => (sending.apart id member).2 (sub.subset inside)⟩

/-- Posting the head of the queue only moves its id from one list to the other. -/
theorem send_head_sending {w : World Payload} (next : Request Payload) (rest : List (Request Payload))
    (waiting : w.chan.sendQueue = next :: rest) (sending : Sending w) :
    Sending (sendInvoke { w with chan := { w.chan with sendQueue := rest } } next) := by
  have perm : ((next.id :: w.posted.filterMap sentId) ++ rest.map (·.id)).Perm
      (w.posted.filterMap sentId ++ w.chan.sendQueue.map (·.id)) := by
    rw [waiting, List.map_cons]
    exact List.perm_middle.symm
  have shape : (sendInvoke { w with chan := { w.chan with sendQueue := rest } } next).posted.filterMap
      sentId = next.id :: w.posted.filterMap sentId := by simp [sendInvoke, sentId]
  refine ⟨?_, ?_, ?_⟩ <;> rw [shape]
  · exact perm.nodup_iff.mpr sending.once
  · exact fun id member => sending.known id (perm.subset member)
  · exact fun id member => ⟨(sending.apart id member).1,
      fun inside => (sending.apart id member).2 (perm.subset inside)⟩

theorem drain_sending (w : World Payload) (sending : Sending w) : Sending (drainSendQueue w) := by
  unfold drainSendQueue
  split
  · exact sending
  · rename_i next rest waiting
    split
    · exact sending
    · exact send_head_sending next rest waiting sending

theorem invoke_sending (w : World Payload) (args : Invocation Payload) (sending : Sending w) :
    Sending (invoke w args) := by
  have newId : w.chan.msgID ∉ w.posted.filterMap sentId ++ w.chan.sendQueue.map (·.id) :=
    fun member => Nat.lt_irrefl _ (sending.known _ member)
  have once : (w.chan.msgID :: (w.posted.filterMap sentId ++ w.chan.sendQueue.map (·.id))).Nodup :=
    List.nodup_cons.mpr ⟨newId, sending.once⟩
  have known : ∀ id ∈ w.chan.msgID :: (w.posted.filterMap sentId ++ w.chan.sendQueue.map (·.id)),
      id < w.chan.msgID + 1 := by
    intro id member
    rcases List.mem_cons.mp member with same | before
    · omega
    · exact Nat.lt_succ_of_lt (sending.known id before)
  have apart : ∀ id ∈ w.givenUp, id < w.chan.msgID + 1 ∧
      id ∉ w.chan.msgID :: (w.posted.filterMap sentId ++ w.chan.sendQueue.map (·.id)) := by
    intro id member
    have before := sending.apart id member
    refine ⟨Nat.lt_succ_of_lt before.1, fun inside => ?_⟩
    rcases List.mem_cons.mp inside with same | listed
    · omega
    · exact before.2 listed
  unfold invoke
  split
  · exact sending_frame sending rfl (List.Sublist.refl _) rfl rfl
  simp only
  split
  · have perm : ((enqueueSend (register w) { args with id := w.chan.msgID }).posted.filterMap sentId ++
        (enqueueSend (register w) { args with id := w.chan.msgID }).chan.sendQueue.map (·.id)).Perm
        (w.chan.msgID :: (w.posted.filterMap sentId ++ w.chan.sendQueue.map (·.id))) := by
      simp only [enqueueSend, register, List.map_append, List.map_cons, List.map_nil,
        ← List.append_assoc]
      exact List.perm_append_singleton _ _
    exact ⟨perm.nodup_iff.mpr once, fun id member => known id (perm.subset member),
      fun id member => ⟨(apart id member).1, fun inside => (apart id member).2 (perm.subset inside)⟩⟩
  · exact ⟨by simpa [sendInvoke, register, sentId] using once,
      by simpa [sendInvoke, register, sentId] using known,
      by simpa [sendInvoke, register, sentId] using apart⟩

theorem expire_sending (w : World Payload) (id call : Nat) (sending : Sending w) :
    Sending (expire w id call) := by
  have sub : (w.posted.filterMap sentId ++
      (w.chan.sendQueue.filter fun item => item.id != id).map (·.id)).Sublist
      (w.posted.filterMap sentId ++ w.chan.sendQueue.map (·.id)) :=
    (List.filter_sublist.map _).append_left _
  refine ⟨sending.once.sublist sub, fun other member => sending.known other (sub.subset member), ?_⟩
  intro other member
  simp only [expire, answer] at member ⊢
  by_cases queued : (w.chan.sendQueue.any fun item => item.id == id) = true
  · rw [if_pos queued] at member
    rcases List.mem_cons.mp member with same | before
    · subst same
      obtain ⟨item, inQueue, same⟩ := List.any_eq_true.mp queued
      have waiting : other ∈ w.chan.sendQueue.map (·.id) :=
        List.mem_map.mpr ⟨item, inQueue, by simpa using same⟩
      refine ⟨sending.known other (List.mem_append_right _ waiting), fun inside => ?_⟩
      rcases List.mem_append.mp inside with sent | left
      · exact (List.nodup_append.mp sending.once).2.2 other sent other waiting rfl
      · obtain ⟨kept, filtered, sameId⟩ := List.mem_map.mp left
        simp [sameId] at filtered
    · exact ⟨(sending.apart other before).1,
        fun inside => (sending.apart other before).2 (sub.subset inside)⟩
  · rw [if_neg queued] at member
    exact ⟨(sending.apart other member).1,
      fun inside => (sending.apart other member).2 (sub.subset inside)⟩

theorem step_sending {w v : World Payload} (step : Step w v) (sending : Sending w) : Sending v := by
  cases step with
  | invoke args => exact invoke_sending w args sending
  | reply token id err data metering =>
      unfold replyCallback drainDispatchQueue
      split
      · exact sending_frame sending (sent_reply _ _) (List.Sublist.refl _) rfl rfl
      · split <;>
          exact sending_frame sending (sent_reply _ _) (List.Sublist.refl _) rfl rfl
  | invalidate =>
      unfold invalidate
      split
      · exact sending
      · exact sending_frame sending rfl (List.Sublist.refl _) rfl rfl
  | returned => exact sending_frame sending rfl (List.Sublist.refl _) rfl rfl
  | closing ids rest =>
      unfold closeNext failPending
      split
      · split <;> exact sending_frame sending rfl (List.Sublist.refl _) rfl rfl
      · exact sending_frame sending rfl (List.nil_sublist _) rfl rfl
  | deliverInvoke message =>
      unfold handleInvoke
      split
      · exact sending_frame sending (sent_reply _ _) (List.Sublist.refl _) rfl rfl
      · split <;> exact sending_frame sending rfl (List.Sublist.refl _) rfl rfl
  | deliverReply message =>
      have drained : Sending (drainSendQueue (sendAnswered w message.id)) :=
        drain_sending _ (sending_frame sending rfl (List.Sublist.refl _) rfl rfl)
      unfold handleReply settleReply
      split
      · exact drained
      · exact sending_frame drained rfl (List.Sublist.refl _) rfl rfl
  | expire id call => exact expire_sending w id call sending

end Sending

structure Invariant (cap : Nat) (w : World Payload) : Prop where
  sends : SendBound cap w
  dispatches : DispatchBound cap w
  correlated : Correlated w
  sending : Sending w

theorem opened_invariant (cap : Nat) (onInvoke onClose : Bool) :
    Invariant cap (opened cap onInvoke onClose : World Payload) where
  sends := ⟨rfl, rfl, Nat.zero_le _, by simp [opened]⟩
  dispatches := ⟨rfl, rfl, Nat.zero_le _, by simp [opened]⟩
  correlated := ⟨by simp [opened], by simp [opened], by simp [opened], by simp [opened],
    by simp [opened], by simp [opened], by simp [opened], .live rfl (by simp [opened]) rfl⟩
  sending := ⟨by simp [opened], by simp [opened], by simp [opened]⟩

theorem reachable_invariant (cap : Nat) (onInvoke onClose : Bool) (w : World Payload)
    (reach : Reachable cap onInvoke onClose w) : Invariant cap w := by
  induction reach with
  | refl => exact opened_invariant cap onInvoke onClose
  | tail _ step ih =>
      exact ⟨step_send_bound cap step ih.sends, step_dispatch_bound cap step ih.dispatches,
        step_correlated step ih.correlated, step_sending step ih.sending⟩

/-- `invalidate` has run to its end: no loop of it is on the stack. -/
def invalidated (w : World Payload) : Prop :=
  w.chan.closed = true ∧ ∀ ids, Frame.closing ids ∉ w.stack

theorem invalidated_empty (w : World Payload) (phase : Phase w) (done : invalidated w) :
    w.chan.pending = [] ∧ w.chan.sendQueue = [] ∧ w.chan.dispatchQueue = [] := by
  cases phase with
  | live openEnd => simp [invalidated, openEnd] at done
  | closing _ above below looping =>
      exact absurd (by simp [looping]) (done.2 (w.timers.map Prod.fst))
  | dead _ _ _ none_pending none_queued => exact ⟨none_pending, none_queued⟩

/-! From a call of `invalidate` on. The loop runs over what `timers` holds at the call, with
foreign code between its turns, and no message or timer comes before it has ended. -/
section Invalidating

/-- A closed end, where every call that awaited an answer still does or has got `PEER_GONE`, and nothing was sent. -/
structure Closing (awaited : List (Nat × Nat)) (sent : List (Message Payload)) (v : World Payload) : Prop where
  closed : v.chan.closed = true
  told : ∀ entry ∈ awaited, entry ∈ v.timers ∨ (entry.2, Answer.peerGone) ∈ v.answers
  silent : ∀ request, .peerInvoke request ∈ v.posted → .peerInvoke request ∈ sent

theorem closing_frame {awaited : List (Nat × Nat)} {sent : List (Message Payload)} {v u : World Payload}
    (closing : Closing awaited sent v) (closed : u.chan.closed = v.chan.closed) (timers : u.timers = v.timers)
    (answers : ∀ item ∈ v.answers, item ∈ u.answers)
    (posted : ∀ request, .peerInvoke request ∈ u.posted → .peerInvoke request ∈ v.posted) : Closing awaited sent u where
  closed := closed.trans closing.closed
  told := fun entry member => (closing.told entry member).imp (timers ▸ ·) (answers _)
  silent := fun request member => closing.silent request (posted request member)

/-- One turn of the loop tells the call that it takes off the timers. -/
theorem close_next_closing {awaited : List (Nat × Nat)} {sent : List (Message Payload)} {v : World Payload}
    (closing : Closing awaited sent v) (correlated : Correlated v) (ids : List Nat) (rest : List Frame) :
    Closing awaited sent (closeNext v ids rest) := by
  unfold closeNext failPending
  split
  · rename_i id later
    split
    · exact closing_frame closing rfl rfl (fun _ member => member) fun _ member => member
    · rename_i found
      refine ⟨closing.closed, fun awaiting member => ?_, closing.silent⟩
      rcases closing.told awaiting member with timed | told
      · by_cases same : awaiting.1 = id
        · -- the entry that the loop finds is this one, as ids are not used twice
          have stored := found_entry found
          have pending := correlated.kept.subset timed
          have unique := List.inj_on_of_nodup_map correlated.keyed stored pending same.symm
          exact Or.inr (by simp [answer, ← unique])
        · exact Or.inl (List.mem_filter.mpr ⟨timed, by simpa using same⟩)
      · exact Or.inr (List.mem_cons_of_mem _ told)
  · exact closing_frame closing rfl rfl (fun _ member => member) fun _ member => member

theorem step_closing {awaited : List (Nat × Nat)} {sent : List (Message Payload)} {v u : World Payload}
    (step : Step v u) (correlated : Correlated v) (closing : Closing awaited sent v) : Closing awaited sent u := by
  have shut := closing.closed
  -- a turn of its own would need an end that was never closed
  have busy : v.stack = [] → (v.portClosed = false ∨ v.timers ≠ []) → False := by
    intro idle work
    have openEnd := (idle_live v correlated.phase idle work).1
    simp [shut] at openEnd
  cases step with
  | invoke args =>
      rw [invoke, if_pos shut]
      exact closing_frame closing rfl rfl (fun _ member => List.mem_cons_of_mem _ member) fun _ member => member
  | reply token id err data metering =>
      have replied : ∀ request, .peerInvoke request ∈
          (.peerReply ⟨id, err.map Prod.fst, err.bind Prod.snd, data, metering⟩ :: v.posted) →
          .peerInvoke request ∈ v.posted := by simp
      unfold replyCallback drainDispatchQueue
      split
      · exact closing_frame closing rfl rfl (fun _ member => member) replied
      · split <;> exact closing_frame closing rfl rfl (fun _ member => member) replied
  | invalidate =>
      rw [invalidate, if_pos shut]
      exact closing
  | returned rest top => exact closing_frame closing rfl rfl (fun _ member => member) fun _ member => member
  | closing ids rest top => exact close_next_closing closing correlated ids rest
  | deliverInvoke message idle live => exact (busy idle (Or.inl live)).elim
  | deliverReply message idle live => exact (busy idle (Or.inl live)).elim
  | expire id call idle armed => exact (busy idle (Or.inr (List.ne_nil_of_mem armed))).elim

/-- What is left to run in a turn: a callback that returns, or the loop with a callback for each id and `onClose`. -/
def weight : Frame → Nat
  | .user => 1
  | .closing ids => 2 * ids.length + 2

theorem fail_pending_stack (v : World Payload) (id : Nat) :
    (failPending v id).stack = v.stack ∨ (failPending v id).stack = .user :: v.stack := by
  unfold failPending
  split
  · exact Or.inl rfl
  · exact Or.inr rfl

/-- Foreign code that returns lets every turn come to its end. -/
theorem turn_ends (v : World Payload) : ∃ u, Relation.ReflTransGen Step v u ∧ u.stack = [] := by
  induction total : (v.stack.map weight).sum using Nat.strongRecOn generalizing v with
  | _ left ih =>
      cases stack : v.stack with
      | nil => exact ⟨v, .refl, stack⟩
      | cons frame rest =>
          obtain ⟨u, step, less⟩ : ∃ u, Step v u ∧ (u.stack.map weight).sum < left := by
            rw [stack, List.map_cons, List.sum_cons] at total
            cases frame with
            | user => exact ⟨_, .returned v rest stack, by simp [weight] at total ⊢; omega⟩
            | closing ids =>
                refine ⟨_, .closing v ids rest stack, ?_⟩
                cases ids with
                | nil =>
                    simp only [closeNext]
                    split <;> simp [weight] at total ⊢ <;> omega
                | cons id later =>
                    simp only [closeNext]
                    rcases fail_pending_stack { v with stack := .closing later :: rest } id with same | called
                    · simp [same, weight] at total ⊢
                      omega
                    · simp [called, weight] at total ⊢
                      omega
          obtain ⟨final, reach, done⟩ := ih _ less u rfl
          exact ⟨final, .head step reach, done⟩

/-- What a call of `invalidate` has come to when it has returned. -/
structure Invalidated (w v : World Payload) : Prop where
  told : ∀ entry ∈ w.chan.pending, (entry.2, Answer.peerGone) ∈ v.answers
  empty : v.chan.pending = [] ∧ v.chan.sendQueue = [] ∧ v.chan.dispatchQueue = []
  silent : ∀ request, .peerInvoke request ∈ v.posted → .peerInvoke request ∈ w.posted
  portClosed : v.portClosed = true

theorem invalidate_closing {w v : World Payload} (correlated : Correlated w) (openEnd : w.chan.closed = false)
    (reach : Relation.ReflTransGen Step (invalidate w) v) : Correlated v ∧ Closing w.chan.pending w.posted v := by
  have timed : w.timers = w.chan.pending := by
    cases correlated.phase with
    | live _ _ timed => exact timed
    | closing shut => simp [openEnd] at shut
    | dead shut => simp [openEnd] at shut
  have began : Closing w.chan.pending w.posted (invalidate w) := by
    rw [invalidate, if_neg (by simp [openEnd])]
    exact ⟨rfl, fun entry member => Or.inl (timed ▸ member), fun _ member => member⟩
  induction reach with
  | refl => exact ⟨invalidate_correlated w correlated, began⟩
  | tail _ step ih => exact ⟨step_correlated step ih.1, step_closing step ih.1 ih.2⟩

theorem invalidated_of_done {w v : World Payload} (correlated : Correlated v)
    (closing : Closing w.chan.pending w.posted v) (done : ∀ ids, Frame.closing ids ∉ v.stack) : Invalidated w v := by
  cases correlated.phase with
  | live openEnd =>
      have shut := closing.closed
      simp [openEnd] at shut
  | closing _ above below looping =>
      exact absurd (by simp [looping]) (done (v.timers.map Prod.fst))
  | dead _ _ untimed none_pending none_queued silent =>
      refine ⟨fun entry member => ?_, ⟨none_pending, none_queued⟩, closing.silent, silent⟩
      have toldNow := closing.told entry member
      simpa [untimed] using toldNow

end Invalidating

/-- Every callback is called at most once, with the reply to its own message id
or with `PEER_CHANNEL_TIMEOUT` or `PEER_GONE`; a request given up while queued is
not sent; both counters stay within the cap and a queue is non-empty only at the
cap. Nothing is left at an end where `invalidate` has run; and from each call of it
the end is closed, the call comes to its end, and then every call that was pending
has been told `PEER_GONE` and nothing that was queued has been sent. -/
theorem channel_correlation_and_backpressure (cap : Nat) (onInvoke onClose : Bool)
    (w : World Payload) (reach : Reachable cap onInvoke onClose w) :
    (w.answers.map Prod.fst).Nodup ∧
    (∀ item ∈ w.answers, OwnAnswer w.owners item) ∧
    (∀ id ∈ w.givenUp, ∀ request, .peerInvoke request ∈ w.posted → request.id ≠ id) ∧
    (0 ≤ w.chan.activeSends ∧ w.chan.activeSends ≤ cap) ∧
    (0 ≤ w.chan.activeDispatches ∧ w.chan.activeDispatches ≤ cap) ∧
    (w.chan.sendQueue ≠ [] → w.chan.activeSends = cap) ∧
    (w.chan.dispatchQueue ≠ [] → w.chan.activeDispatches = cap) ∧
    (invalidated w → w.chan.pending = [] ∧ w.chan.sendQueue = [] ∧ w.chan.dispatchQueue = []) ∧
    (foreignTurn w → w.chan.closed = false → ∀ v, Relation.ReflTransGen Step (invalidate w) v →
      v.chan.closed = true ∧ ((∀ ids, Frame.closing ids ∉ v.stack) → Invalidated w v) ∧
      ∃ u, Relation.ReflTransGen Step v u ∧ u.stack = []) := by
  have inv := reachable_invariant cap onInvoke onClose w reach
  have sends := inv.sends.counted
  have sendsBound := inv.sends.bounded
  have dispatches := inv.dispatches.counted
  have dispatchesBound := inv.dispatches.bounded
  refine ⟨(List.nodup_append.mp inv.correlated.single).2.1, inv.correlated.own, ?_,
    ⟨by omega, by omega⟩, ⟨by omega, by omega⟩, fun waiting => ?_, fun waiting => ?_,
    invalidated_empty w inv.correlated.phase, fun _ openEnd v later => ?_⟩
  · intro id member request posted same
    have sent : id ∈ w.posted.filterMap sentId :=
      List.mem_filterMap.mpr ⟨_, posted, by simp [sentId, same]⟩
    exact (inv.sending.apart id member).2 (List.mem_append_left _ sent)
  · rw [sends, inv.sends.full waiting]
  · rw [dispatches, inv.dispatches.full waiting]
  · obtain ⟨correlated, closing⟩ := invalidate_closing inv.correlated openEnd later
    exact ⟨closing.closed, invalidated_of_done correlated closing, turn_ends v⟩

def readCall : Invocation Nat := ⟨"echo", "svc", "read", 7, none⟩

/-- Two calls under a cap of one: the second waits in the queue. -/
def secondQueued : World Nat := invoke (invoke (opened 1 true false) readCall) readCall

theorem second_queued_reachable : Reachable 1 true false secondQueued :=
  (Relation.ReflTransGen.single (Step.invoke _ readCall (Or.inl rfl))).tail
    (Step.invoke _ readCall (Or.inl rfl))

/-- The cap is reached; and once the channel is invalidated, both calls are told that the peer is gone. -/
theorem second_queued_at_cap : secondQueued.chan.sendQueue ≠ [] ∧ secondQueued.chan.activeSends = 1 ∧
    ∀ v, Relation.ReflTransGen Step (invalidate secondQueued) v → (∀ ids, Frame.closing ids ∉ v.stack) →
      (0, .peerGone) ∈ v.answers ∧ (1, .peerGone) ∈ v.answers := by
  have waiting : secondQueued.chan.sendQueue ≠ [] := by
    simp [secondQueued, invoke, opened, atCap, sendInvoke, register, enqueueSend]
  have facts := channel_correlation_and_backpressure 1 true false secondQueued second_queued_reachable
  refine ⟨waiting, facts.2.2.2.2.2.1 waiting, fun v later done => ?_⟩
  have told := ((facts.2.2.2.2.2.2.2.2 (Or.inl rfl) rfl v later).2.1 done).told
  exact ⟨told (0, 0) (by decide), told (1, 1) (by decide)⟩

end Countinghouse.PeerChannel
