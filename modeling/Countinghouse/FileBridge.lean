import Mathlib

/-!
The file bridge between a module's worker and the main thread, until close(): createClient of
lib/fs-broker/client.js and createBridge of lib/fs-broker/server.js.

The two threads take turns at every access to what they share, the ports and the counter. On
the main thread a message or a timer waits until the callbacks of the last one have run. A
broker operation settles at any time and with any outcome, or never; a deadline or a backstop
may come at any time. Arguments matter here only as what can be posted and what cannot.
-/

namespace Countinghouse.FileBridge

/-! Messages. -/
section Messages

inductive Port where
  | sync | async
  deriving DecidableEq

structure Request where
  id : Nat
  op : String
  deriving DecidableEq

/-- What errorOut copies from an error, and toError into one. -/
structure Failure where
  message : String
  code : Option String
  errno : Option Int
  syscall : Option String
  path : Option String
  dest : Option String
  deriving DecidableEq

def nodeError (code text : String) (errno : Int) (op : String) : Failure :=
  ⟨code ++ ": " ++ text ++ ", " ++ op, some code, some errno, some op, none, none⟩

/-- `nodeError('EIO', op)` -/
def refusal (op : String) : Failure := nodeError "EIO" "i/o error" (-5) op

/-- `nodeError('ETIMEDOUT', op)` -/
def timeout (op : String) : Failure := nodeError "ETIMEDOUT" "connection timed out" (-110) op

abbrev Outcome (Result : Type) := Except Failure Result

structure Reply (Result : Type) where
  id : Nat
  outcome : Outcome Result

/-- `cloneError` has the error of a result that cannot be posted. -/
structure Settings (Result : Type) where
  maxStuck : Nat
  cloneError : Result → Option Failure

variable {Result : Type}

/-- What reply posts: the result, or the error instead. -/
def Settings.wire (settings : Settings Result) : Outcome Result → Outcome Result
  | .error e => .error e
  | .ok result =>
      match settings.cloneError result with
      | none => .ok result
      | some e => .error e

end Messages

/-! Both ends. -/
section Ends

/-- The broker's promise; `settling` while the callback that takes it off `stuck` is due. -/
inductive Work where
  | none | running | settling | settled
  deriving DecidableEq

/-- How far the reply to a request has come. -/
inductive Answer (Result : Type) where
  | waiting
  | posting (outcome : Outcome Result)
  | counting
  | notifying
  | releasing
  | done

/-- A request that the main thread has taken off its port; `held` when it was counted in `inFlight`. -/
structure Task (Result : Type) where
  port : Port
  request : Request
  held : Bool
  work : Work
  timedOut : Bool
  answer : Answer Result

/-- Where the worker is in its sync loop. -/
inductive Mode where
  | idle
  | looping (request : Request)
  | draining (request : Request) (seen : Nat)
  | deciding (request : Request) (seen : Nat)
  | asleep (request : Request)
  deriving DecidableEq

/-- How a call has ended: with a reply, with the error of postMessage, or with `eio(op)` at its backstop. -/
inductive Ending (Result : Type) where
  | reply (reply : Reply Result)
  | unposted
  | gaveUp

/-- From `sent` on it is history: what was posted on a port each way, whose replies were counted, how the sync calls
ended and how the promises settled. -/
structure State (Result : Type) where
  tasks : List (Task Result)
  stuck : Nat
  inFlight : Nat
  inbox : Port → List Request
  outbox : Port → List (Reply Result)
  counter : Nat
  seq : Nat
  mode : Mode
  pending : List Nat
  sent : Port → List Request
  replies : Port → List (Reply Result)
  counted : List Nat
  ended : List (Nat × Ending Result)
  settled : List (Nat × Ending Result)

def start (Result : Type) : State Result :=
  ⟨[], 0, 0, fun _ => [], fun _ => [], 0, 0, .idle, [], fun _ => [], fun _ => [], [], [], []⟩

end Ends

/-! The worker's thread. -/
section Worker

variable {Result : Type}

def State.post (s : State Result) (port : Port) (request : Request) : State Result :=
  { s with
    inbox := Function.update s.inbox port (s.inbox port ++ [request])
    sent := Function.update s.sent port (s.sent port ++ [request]) }

/-- sync up to its loop. -/
def State.sync (s : State Result) (op : String) (clones : Bool) : Option (State Result) :=
  if s.mode ≠ .idle then none
  else if clones then
    some { s.post .sync ⟨s.seq + 1, op⟩ with seq := s.seq + 1, mode := .looping ⟨s.seq + 1, op⟩ }
  else some { s with seq := s.seq + 1, ended := s.ended ++ [(s.seq + 1, .unposted)] }

/-- `const seen = Atomics.load(counter, 0)` -/
def State.load (s : State Result) : Option (State Result) :=
  match s.mode with
  | .looping request => some { s with mode := .draining request s.counter }
  | _ => none

/-- receiveMessageOnPort; an empty port ends the inner loop. -/
def State.receive (s : State Result) : Option (State Result) :=
  match s.mode with
  | .draining request seen =>
      match s.outbox .sync with
      | [] => some { s with mode := .deciding request seen }
      | m :: rest =>
          let s := { s with outbox := Function.update s.outbox .sync rest }
          if m.id ≠ request.id then some s
          else some { s with mode := .idle, ended := s.ended ++ [(request.id, .reply m)] }
  | _ => none

/-- `if (left <= 0) throw eio(op)` -/
def State.giveUp (s : State Result) : Option (State Result) :=
  match s.mode with
  | .deciding request _ => some { s with mode := .idle, ended := s.ended ++ [(request.id, .gaveUp)] }
  | _ => none

/-- `Atomics.wait(counter, 0, seen, left)` -/
def State.wait (s : State Result) : Option (State Result) :=
  match s.mode with
  | .deciding request seen =>
      some { s with mode := if s.counter = seen then .asleep request else .looping request }
  | _ => none

def Mode.woken : Mode → Mode
  | .asleep request => .looping request
  | mode => mode

/-- The wait has lasted `left`. -/
def State.expire (s : State Result) : Option (State Result) :=
  match s.mode with
  | .asleep request => some { s with mode := .looping request }
  | _ => none

def State.async (s : State Result) (op : String) (clones : Bool) : Option (State Result) :=
  if s.mode ≠ .idle then none
  else
    let s := { s with seq := s.seq + 1, pending := s.pending ++ [s.seq + 1] }
    if clones then some (s.post .async ⟨s.seq, op⟩)
    else some { s with settled := s.settled ++ [(s.seq, .unposted)] }

/-- The listener of the async port. -/
def State.message (s : State Result) : Option (State Result) :=
  match s.mode, s.outbox .async with
  | .idle, m :: rest =>
      let s := { s with outbox := Function.update s.outbox .async rest }
      if m.id ∉ s.pending then some s
      else some { s with pending := s.pending.erase m.id, settled := s.settled ++ [(m.id, .reply m)] }
  | _, _ => none

end Worker

/-! The main thread. -/
section Main

variable {Result : Type} (settings : Settings Result)

def Task.resting (t : Task Result) : Bool :=
  (match t.answer with | .waiting | .done => true | _ => false) && t.work ≠ .settling

/-- No callback is due. -/
def State.atRest (s : State Result) : Bool := s.tasks.all Task.resting

def State.add (s : State Result) (t : Task Result) : State Result := { s with tasks := s.tasks ++ [t] }

def State.put (s : State Result) (place : Nat) (t : Task Result) : State Result :=
  { s with tasks := s.tasks.set place t }

def State.exec (s : State Result) (port : Port) (request : Request) (held : Bool) : State Result :=
  if settings.maxStuck ≤ s.stuck then
    s.add ⟨port, request, held, .none, false, .posting (.error (refusal request.op))⟩
  else s.add ⟨port, request, held, .running, false, .waiting⟩

/-- The two listeners. -/
def State.dispatch (s : State Result) (port : Port) : Option (State Result) :=
  if !s.atRest then none
  else
    match s.inbox port with
    | [] => none
    | request :: rest =>
        let s := { s with inbox := Function.update s.inbox port rest }
        match port with
        | .async => some (s.exec settings .async request false)
        | .sync =>
            if 0 < s.inFlight then
              some (s.add ⟨.sync, request, false, .none, false, .posting (.error (refusal request.op))⟩)
            else some ({ s with inFlight := s.inFlight + 1 }.exec settings .sync request true)

/-- broker.handle's promise settles. -/
def State.settle (s : State Result) (place : Nat) (outcome : Outcome Result) : Option (State Result) :=
  match s.tasks[place]? with
  | some t =>
      if t.work ≠ .running then none
      else if t.timedOut then some (s.put place { t with work := .settling })
      else some (s.put place { t with work := .settled, answer := .posting outcome })
  | none => none

/-- The timer of exec. -/
def State.deadline (s : State Result) (place : Nat) : Option (State Result) :=
  match s.tasks[place]? with
  | some t =>
      if !s.atRest || t.work ≠ .running || t.timedOut then none
      else
        some { s.put place { t with timedOut := true, answer := .posting (.error (timeout t.request.op)) } with
          stuck := s.stuck + 1 }
  | none => none

/-- The next thing that is due for a reply. -/
def State.act (s : State Result) (place : Nat) : Option (State Result) :=
  match s.tasks[place]? with
  | some t =>
      match t.answer with
      | .waiting | .done => none
      | .posting outcome =>
          let m := ⟨t.request.id, settings.wire outcome⟩
          some { s.put place { t with answer := if t.port = .sync then .counting else .done } with
            outbox := Function.update s.outbox t.port (s.outbox t.port ++ [m])
            replies := Function.update s.replies t.port (s.replies t.port ++ [m]) }
      | .counting =>
          some { s.put place { t with answer := .notifying } with
            counter := (s.counter + 1) % 2 ^ 32
            counted := s.counted ++ [t.request.id] }
      | .notifying =>
          some { s.put place { t with answer := if t.held then .releasing else .done } with mode := s.mode.woken }
      | .releasing => some { s.put place { t with answer := .done } with inFlight := s.inFlight - 1 }
  | none => none

/-- `.then(() => { stuck--; })` -/
def State.unstick (s : State Result) (place : Nat) : Option (State Result) :=
  match s.tasks[place]? with
  | some t =>
      if t.work ≠ .settling then none
      else some { s.put place { t with work := .settled } with stuck := s.stuck - 1 }
  | none => none

inductive Event (Result : Type) where
  | sync (op : String) (clones : Bool)
  | load
  | receive
  | giveUp
  | wait
  | expire
  | async (op : String) (clones : Bool)
  | message
  | dispatch (port : Port)
  | settle (place : Nat) (outcome : Outcome Result)
  | deadline (place : Nat)
  | act (place : Nat)
  | unstick (place : Nat)

def State.step (s : State Result) : Event Result → Option (State Result)
  | .sync op clones => s.sync op clones
  | .load => s.load
  | .receive => s.receive
  | .giveUp => s.giveUp
  | .wait => s.wait
  | .expire => s.expire
  | .async op clones => s.async op clones
  | .message => s.message
  | .dispatch port => s.dispatch settings port
  | .settle place outcome => s.settle place outcome
  | .deadline place => s.deadline place
  | .act place => s.act settings place
  | .unstick place => s.unstick place

def State.run (s : State Result) : List (Event Result) → Option (State Result)
  | [] => some s
  | e :: rest => (s.step settings e).bind fun after => after.run rest

end Main

end Countinghouse.FileBridge
