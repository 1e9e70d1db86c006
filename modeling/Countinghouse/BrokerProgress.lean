import Countinghouse.BrokerQueues
import Countinghouse.FsBroker

/-!
The file brokers of all workers with the scheduler they share: how an operation waits for the
read/write lock, then for a slot, and in its slot for the host or in the chain of a
descriptor. What the host answers is part of the events, so that an operation may make any
number of host calls; what it asks of the host is no matter here.

An operation that was given something goes on in a later microtask, which is an event of its
own. A descriptor that was taken off the table keeps its chain; numbers are not used twice.
-/

namespace Countinghouse.BrokerProgress

open PlainObject BrokerQueues FsBroker

/-! Operations and brokers. -/
section Brokers

/-- A host call that is waited for in a slot. -/
inductive HostCall where
  /-- Of an operation on paths. -/
  | path
  /-- Of `open`, also within `readFile` and `writeFile`. -/
  | opening
  /-- Of `readFile`, on its own descriptor. -/
  | reading (fd : Nat)
  /-- Of what `serial` was given for the descriptor. -/
  | serial (fd : Nat)
  /-- The last one, `fh.close`. -/
  | closing

inductive Phase where
  /-- In the queue of the lock. -/
  | locking
  /-- The lock was given; `handleOne` has not gone on yet. -/
  | granted
  /-- In the scheduler's queue. -/
  | queued
  /-- Taken from the queue; `item.task` has not been called yet. -/
  | picked
  | host (call : HostCall)
  /-- In the chain of the descriptor. -/
  | chained (fd : Nat)
  /-- A `readFile` with its descriptor, or a `writeFile` with it or after a write; whether it may write. -/
  | resumed (fd : Nat) (mayWrite : Bool)
  /-- A `close` that waits for what was last in the chain. -/
  | draining (fd : Nat) (last : Option Nat)
  /-- Done or rejected: whether a slot and the lock are still to be given back. -/
  | ended (slot held : Bool)

structure Task where
  key : String
  op : Op
  lock : Lock
  phase : Phase

/-- One worker's broker; `chains` has for each descriptor what has not settled yet, the first first. -/
structure Broker where
  lock : RwLock
  fds : List Nat
  nextFd : Nat
  chains : Nat → List Nat
  closed : Bool

structure System where
  scheduler : Scheduler
  brokers : String → Broker
  tasks : Nat → Option Task
  next : Nat

def start : System := ⟨Scheduler.fresh, fun _ => ⟨RwLock.fresh, [], 3, fun _ => [], false⟩, fun _ => none, 0⟩

inductive Answer where
  /-- There is another host call to make. -/
  | more
  | done
  | failed

/-- What an operation does next. -/
inductive Act where
  | answer (answer : Answer)
  | resume
  /-- `ok` unless the operation fails before its first wait, here and in the next two. -/
  | begin (ok : Bool)
  | turn (ok : Bool)
  | goOn (ok : Bool)
  | drained
  | freeSlot
  | release

inductive Event where
  | request (key : String) (op : Op)
  /-- `bridge.close()` of a worker that has ended. -/
  | close (key : String)
  | act (n : Nat) (act : Act)

end Brokers

/-! Steps. -/
section Steps

variable (limits : Limits)

def System.setPhase (s : System) (n : Nat) (phase : Phase) : System :=
  { s with tasks := Function.update s.tasks n ((s.tasks n).map fun task => { task with phase := phase }) }

/-- Nothing is left of an operation that has nothing to give back. -/
def System.settle (s : System) (n : Nat) (slot held : Bool) : System :=
  if slot || held then s.setPhase n (.ended slot held) else { s with tasks := Function.update s.tasks n none }

def System.setBroker (s : System) (key : String) (broker : Broker) : System :=
  { s with brokers := Function.update s.brokers key broker }

/-- The lock's state and whom it was given to. -/
def System.locked (s : System) (key : String) (result : RwLock × List (Nat × Bool)) : System :=
  result.2.foldl (fun s entry => s.setPhase entry.1 .granted)
    (s.setBroker key { s.brokers key with lock := result.1 })

/-- The scheduler's state and the items it has taken. -/
def System.scheduled (s : System) (result : Scheduler × List (String × Nat)) : System :=
  result.2.foldl (fun s entry => s.setPhase entry.2 .picked) { s with scheduler := result.1 }

def System.submit (s : System) (n : Nat) (task : Task) : System :=
  match s.scheduler.submit limits task.key n with
  | none => s.settle n false (task.lock ≠ .none)
  | some result => (s.setPhase n .queued).scheduled result

/-- `handleOne` up to its first `await`. -/
def System.request (s : System) (key : String) (op : Op) : System :=
  if (s.brokers key).closed then s
  else
    match lockOf op with
    | none => s
    | some lock =>
        let n := s.next
        let s := { s with next := n + 1 }
        match lock with
        | .none =>
            let task := ⟨key, op, .none, .granted⟩
            { s with tasks := Function.update s.tasks n (some task) }.submit limits n task
        | lock =>
            { s with tasks := Function.update s.tasks n (some ⟨key, op, lock, .locking⟩) }.locked key
              ((s.brokers key).lock.acquire n (lock = Lock.exclusive))

/-- `serial` -/
def System.serial (s : System) (n : Nat) (task : Task) (fd : Nat) : System :=
  let broker := s.brokers task.key
  if fd ∈ broker.fds then
    (s.setBroker task.key
      { broker with chains := Function.update broker.chains fd (broker.chains fd ++ [n]) }).setPhase n (.chained fd)
  else s.settle n true (task.lock ≠ .none)

/-- `close`, up to `await e.chain` -/
def System.closeFd (s : System) (n : Nat) (task : Task) (fd : Nat) : System :=
  let broker := s.brokers task.key
  if fd ∈ broker.fds then
    (s.setBroker task.key { broker with fds := broker.fds.filter fun other => other ≠ fd }).setPhase n
      (.draining fd (broker.chains fd).getLast?)
  else s.settle n true (task.lock ≠ .none)

/-- The descriptor of an operation on a descriptor, `close` apart. -/
def descriptor : Op → Option Nat
  | .read fd _ _ | .write fd _ _ | .fstat fd | .ftruncate fd _ | .fsync fd | .fdatasync fd | .fchmod fd _
  | .fchown fd _ _ | .futimes fd _ _ => some fd
  | _ => none

/-- `spec.run` up to its first wait. -/
def System.begin (s : System) (n : Nat) (task : Task) (ok : Bool) : System :=
  if !ok then s.settle n true (task.lock ≠ .none)
  else
    match task.op with
    | .open .. | .readFile .. | .writeFile .. => s.setPhase n (.host .opening)
    | .close fd => s.closeFd n task fd
    | op =>
        match descriptor op with
        | some fd => s.serial n task fd
        | none => s.setPhase n (.host .path)

/-- What `serial` was given is done with: the next in the chain has its turn, and a `writeFile` goes on. -/
def System.unlink (s : System) (n : Nat) (task : Task) (fd : Nat) (ok : Bool) : System :=
  let broker := s.brokers task.key
  let s := s.setBroker task.key
    { broker with chains := Function.update broker.chains fd ((broker.chains fd).filter fun other => other ≠ n) }
  match task.op with
  | .writeFile .. => s.setPhase n (.resumed fd ok)
  | _ => s.settle n true (task.lock ≠ .none)

def System.turn (s : System) (n : Nat) (task : Task) (fd : Nat) (ok : Bool) : System :=
  if ok then s.setPhase n (.host (.serial fd)) else s.unlink n task fd false

/-- The descriptor that `open` has made. -/
def System.opened (s : System) (n : Nat) (task : Task) : System :=
  let broker := s.brokers task.key
  let fd := broker.nextFd
  let s := s.setBroker task.key { broker with fds := broker.fds ++ [fd], nextFd := fd + 1 }
  match task.op with
  | .readFile .. | .writeFile .. => s.setPhase n (.resumed fd true)
  | _ => s.settle n true (task.lock ≠ .none)

/-- A `readFile` reads while its descriptor is there; a `writeFile` writes again or closes. -/
def System.goOn (s : System) (n : Nat) (task : Task) (fd : Nat) (mayWrite ok : Bool) : System :=
  match task.op with
  | .writeFile .. => if mayWrite && ok then s.serial n task fd else s.closeFd n task fd
  | _ =>
      if fd ∈ (s.brokers task.key).fds then s.setPhase n (.host (.reading fd))
      else s.settle n true (task.lock ≠ .none)

def System.answered (s : System) (n : Nat) (task : Task) (call : HostCall) (answer : Answer) : System :=
  match call, answer with
  | .closing, _ => s.settle n true (task.lock ≠ .none)
  | _, .more => s
  | .path, _ => s.settle n true (task.lock ≠ .none)
  | .opening, .done => s.opened n task
  | .opening, .failed => s.settle n true (task.lock ≠ .none)
  | .reading fd, _ =>
      let broker := s.brokers task.key
      (s.setBroker task.key { broker with fds := broker.fds.filter fun other => other ≠ fd }).setPhase n
        (.host .closing)
  | .serial fd, .done => s.unlink n task fd true
  | .serial fd, .failed => s.unlink n task fd false

def System.freeSlot (s : System) (n : Nat) (task : Task) (held : Bool) : System :=
  (s.settle n false held).scheduled (s.scheduler.finished limits task.key)

def System.release (s : System) (n : Nat) (task : Task) (slot : Bool) : System :=
  (s.settle n slot false).locked task.key ((s.brokers task.key).lock.release (task.lock = Lock.exclusive))

/-- Operations that the scheduler rejects have no slot to give back. -/
def rejectAll (tasks : Nat → Option Task) (rejected : List Nat) (n : Nat) : Option Task :=
  if n ∈ rejected then
    (tasks n).bind fun task => if task.lock ≠ .none then some { task with phase := .ended false true } else none
  else tasks n

/-- `scheduler.forget`, then `broker.closeAll`. -/
def System.close (s : System) (key : String) : System :=
  if (s.brokers key).closed then s
  else
    let (scheduler, rejected) := s.scheduler.forget key
    { s with
      scheduler
      brokers := Function.update s.brokers key { s.brokers key with fds := [], closed := true }
      tasks := rejectAll s.tasks rejected }

def System.act (s : System) (n : Nat) (task : Task) (act : Act) : System :=
  match task.phase, act with
  | .host call, .answer answer => s.answered n task call answer
  | .granted, .resume => s.submit limits n task
  | .picked, .begin ok => s.begin n task ok
  | .chained fd, .turn ok =>
      if ((s.brokers task.key).chains fd).head? = some n then s.turn n task fd ok else s
  | .resumed fd mayWrite, .goOn ok => s.goOn n task fd mayWrite ok
  | .draining fd last, .drained =>
      if last.all fun link => link ∉ (s.brokers task.key).chains fd then s.setPhase n (.host .closing) else s
  | .ended true held, .freeSlot => s.freeSlot limits n task held
  | .ended slot true, .release => s.release n task slot
  | _, _ => s

def System.step (s : System) : Event → System
  | .request key op => s.request limits key op
  | .close key => s.close key
  | .act n act =>
      match s.tasks n with
      | some task => s.act limits n task act
      | none => s

def System.run (s : System) (events : List Event) : System := events.foldl (System.step limits) s

end Steps

/-! Where an operation stands with the lock, with the scheduler and with the chains. -/
section Claims

/-- It has its slot, and the lock if it asked for one. -/
def Phase.inSlot : Phase → Bool
  | .picked | .host _ | .chained _ | .resumed .. | .draining .. => true
  | .locking | .granted | .queued | .ended .. => false

def Task.exclusive (task : Task) : Bool := task.lock = .exclusive

@[simp]
theorem exclusive_phase (task : Task) (phase : Phase) :
    ({ task with phase } : Task).exclusive = task.exclusive := rfl

/-- With the lock of the broker `key`. -/
def lockClaim (key : String) : Option Task → LockClaim
  | none => .off
  | some task =>
      if task.key ≠ key then .off
      else
        match task.phase with
        | .locking => .waits task.exclusive
        | .ended _ false => .off
        | _ => if task.lock = .none then .off else .holds task.exclusive

def slotClaim : Option Task → SlotClaim
  | none => .off
  | some task =>
      match task.phase with
      | .locking | .granted | .ended false _ => .off
      | .queued => .waits task.key
      | _ => .holds task.key

/-- The chain that it is in. -/
def linkOf : Option Task → Option (String × Nat)
  | none => none
  | some task =>
      match task.phase with
      | .chained fd | .host (.serial fd) => some (task.key, fd)
      | _ => none

/-- Only an operation that asks for a lock waits for it, and one that has ended has something to give back. -/
def Task.Fine (task : Task) : Prop :=
  match task.phase with
  | .locking => task.lock ≠ .none
  | .ended slot held => (slot = true ∨ held = true) ∧ (held = true → task.lock ≠ .none)
  | _ => True

structure Inv (s : System) : Prop where
  locks : ∀ key, (s.brokers key).lock.Agrees (fun n => lockClaim key (s.tasks n)) s.next
  slots : s.scheduler.Agrees (fun n => slotClaim (s.tasks n)) s.next
  links : ∀ key fd n, n ∈ (s.brokers key).chains fd ↔ linkOf (s.tasks n) = some (key, fd)
  fine : ∀ n task, s.tasks n = some task → task.Fine
  bounded : ∀ n, s.tasks n ≠ none → n < s.next

theorem start_inv : Inv start where
  locks := fun _ => fresh_agrees
  slots := fresh_slots_agree
  links := by simp [start, linkOf]
  fine := by simp [start]
  bounded := by simp [start]

/-- A view of the tasks when one of them is another. -/
theorem view_update {α : Type} (view : Option Task → α) (tasks : Nat → Option Task) (n : Nat) (task : Option Task) :
    (fun m => view (Function.update tasks n task m)) = Function.update (fun m => view (tasks m)) n (view task) := by
  funext m
  by_cases same : m = n
  · subst same
    simp
  · simp [same]

theorem view_kept {α : Type} {view : Option Task → α} {tasks : Nat → Option Task} {n : Nat} {task : Option Task}
    (same : view task = view (tasks n)) :
    (fun m => view (Function.update tasks n task m)) = fun m => view (tasks m) := by
  rw [view_update, same, Function.update_eq_self]

/-- The claims of an operation in its slot. -/
theorem lockClaim_inSlot {task : Task} (inSlot : task.phase.inSlot = true) (key : String) :
    lockClaim key (some task) =
      if task.key ≠ key ∨ task.lock = .none then .off else .holds task.exclusive := by
  unfold lockClaim
  cases isPhase : task.phase <;> simp_all [Phase.inSlot, ite_or]

theorem slotClaim_inSlot {task : Task} (inSlot : task.phase.inSlot = true) :
    slotClaim (some task) = .holds task.key := by
  unfold slotClaim
  cases isPhase : task.phase <;> simp_all [Phase.inSlot]

theorem lockClaim_ended (task : Task) (slot : Bool) (key : String) :
    lockClaim key (some { task with phase := .ended slot (task.lock ≠ .none) }) =
      if task.key ≠ key ∨ task.lock = .none then .off else .holds task.exclusive := by
  unfold lockClaim
  by_cases unlocked : task.lock = .none <;> simp [unlocked, Task.exclusive]

end Claims

/-! What an operation does in its slot. -/
section InSlot

variable {s : System} {n : Nat} {task : Task}

/-- The phases that keep the lock and the slot. -/
def Keeps (task : Task) (phase : Phase) : Prop :=
  phase.inSlot = true ∨ phase = .ended true (task.lock ≠ .none)

/-- The chains may change along with the phase. -/
theorem Inv.moved (inv : Inv s) (there : s.tasks n = some task) (inSlot : task.phase.inSlot = true) {phase : Phase}
    (keeps : Keeps task phase) {brokers : String → Broker} (locks : ∀ key, (brokers key).lock = (s.brokers key).lock)
    (links : ∀ key fd m, m ∈ (brokers key).chains fd ↔
      linkOf (Function.update s.tasks n (some { task with phase }) m) = some (key, fd)) :
    Inv { s with brokers, tasks := Function.update s.tasks n (some { task with phase }) } := by
  have lockKept (key : String) : lockClaim key (some { task with phase }) = lockClaim key (s.tasks n) := by
    rw [there, lockClaim_inSlot inSlot]
    rcases keeps with stays | rfl
    · exact @lockClaim_inSlot { task with phase } stays key
    · exact lockClaim_ended task true key
  have slotKept : slotClaim (some { task with phase }) = slotClaim (s.tasks n) := by
    rw [there, slotClaim_inSlot inSlot]
    rcases keeps with stays | rfl
    · exact @slotClaim_inSlot { task with phase } stays
    · rfl
  constructor
  · intro key
    simp only [locks, view_kept (lockKept key)]
    exact inv.locks key
  · simp only [view_kept slotKept]
    exact inv.slots
  · exact links
  · intro m other isOther
    by_cases same : m = n
    · subst same
      simp only [Function.update_self, Option.some.injEq] at isOther
      subst isOther
      rcases keeps with stays | rfl
      · cases phase <;> trivial
      · exact ⟨Or.inl rfl, by simp⟩
    · simp only [Function.update_of_ne same] at isOther
      exact inv.fine m other isOther
  · intro m isTask
    by_cases same : m = n
    · subst same
      exact inv.bounded m (by simp [there])
    · simp only [Function.update_of_ne same] at isTask
      exact inv.bounded m isTask

theorem setPhase_eq (there : s.tasks n = some task) (phase : Phase) :
    s.setPhase n phase = { s with tasks := Function.update s.tasks n (some { task with phase }) } := by
  simp [System.setPhase, there]

/-- The table of descriptors and what is closed are no matter to the invariant. -/
theorem Inv.setBroker (inv : Inv s) {key : String} {broker : Broker} (lock : broker.lock = (s.brokers key).lock)
    (chains : broker.chains = (s.brokers key).chains) : Inv (s.setBroker key broker) := by
  have locks : ∀ other, (Function.update s.brokers key broker other).lock = (s.brokers other).lock := by
    intro other
    by_cases same : other = key
    · subst same
      simpa using lock
    · simp [same]
  have links : ∀ other, (Function.update s.brokers key broker other).chains = (s.brokers other).chains := by
    intro other
    by_cases same : other = key
    · subst same
      simpa using chains
    · simp [same]
  exact
    { inv with
      locks := fun other => by simpa only [System.setBroker, locks] using inv.locks other
      links := fun other fd m => by simpa only [System.setBroker, links] using inv.links other fd m }

theorem Inv.tabled (inv : Inv s) (key : String) (fds : List Nat) (nextFd : Nat) :
    Inv (s.setBroker key { s.brokers key with fds, nextFd }) := inv.setBroker rfl rfl

/-- A phase that is in no chain, after one that is in none. -/
theorem Inv.phase (inv : Inv s) (there : s.tasks n = some task) (inSlot : task.phase.inSlot = true) {phase : Phase}
    (keeps : Keeps task phase) (same : linkOf (some { task with phase }) = linkOf (some task)) :
    Inv (s.setPhase n phase) := by
  rw [setPhase_eq there]
  apply inv.moved there inSlot keeps (fun _ => rfl)
  intro key fd m
  rw [inv.links]
  by_cases equal : m = n
  · subst equal
    simp [there, same]
  · simp [equal]

theorem Inv.settle (inv : Inv s) (there : s.tasks n = some task) (inSlot : task.phase.inSlot = true)
    (free : linkOf (some task) = none) : Inv (s.settle n true (task.lock ≠ .none)) := by
  unfold System.settle
  rw [if_pos (by simp)]
  exact inv.phase there inSlot (Or.inr rfl) free.symm

theorem Inv.serial (inv : Inv s) (there : s.tasks n = some task) (inSlot : task.phase.inSlot = true)
    (free : linkOf (some task) = none) (fd : Nat) : Inv (s.serial n task fd) := by
  unfold System.serial
  dsimp only
  split
  · have kept : (s.setBroker task.key { s.brokers task.key with
        chains := Function.update (s.brokers task.key).chains fd ((s.brokers task.key).chains fd ++ [n]) }).tasks n =
        some task := there
    rw [setPhase_eq kept]
    apply inv.moved there inSlot (Or.inl rfl)
    · intro key
      by_cases same : key = task.key
      · subst same
        simp [System.setBroker]
      · simp [System.setBroker, same]
    · intro key other m
      have old := inv.links key other m
      by_cases equal : m = n
      · subst equal
        rw [there, free] at old
        by_cases same : key = task.key
        · subst same
          by_cases link : other = fd
          · subst link
            simp [System.setBroker, linkOf]
          · simp [System.setBroker, linkOf, link, old, Ne.symm link]
        · simp [System.setBroker, same, linkOf, old, Ne.symm same]
      · by_cases same : key = task.key
        · subst same
          by_cases link : other = fd
          · subst link
            simp [System.setBroker, equal, old]
          · simp [System.setBroker, equal, link, old]
        · simp [System.setBroker, same, equal, old]
  · exact inv.settle there inSlot free

theorem Inv.closeFd (inv : Inv s) (there : s.tasks n = some task) (inSlot : task.phase.inSlot = true)
    (free : linkOf (some task) = none) (fd : Nat) : Inv (s.closeFd n task fd) := by
  unfold System.closeFd
  dsimp only
  split
  · exact (inv.tabled task.key _ _).phase there inSlot (Or.inl rfl) free.symm
  · exact inv.settle there inSlot free

theorem Inv.unlink (inv : Inv s) (there : s.tasks n = some task) (inSlot : task.phase.inSlot = true) {fd : Nat}
    (link : linkOf (some task) = some (task.key, fd)) (ok : Bool) : Inv (s.unlink n task fd ok) := by
  have moved : ∀ phase, Keeps task phase → linkOf (some { task with phase }) = none →
      Inv ((s.setBroker task.key { s.brokers task.key with
        chains := Function.update (s.brokers task.key).chains fd
          (((s.brokers task.key).chains fd).filter fun other => other ≠ n) }).setPhase n phase) := by
    intro phase keeps free
    have kept : (s.setBroker task.key { s.brokers task.key with
        chains := Function.update (s.brokers task.key).chains fd
          (((s.brokers task.key).chains fd).filter fun other => other ≠ n) }).tasks n = some task := there
    rw [setPhase_eq kept]
    apply inv.moved there inSlot keeps
    · intro key
      by_cases same : key = task.key
      · subst same
        simp [System.setBroker]
      · simp [System.setBroker, same]
    · intro key other m
      have old := inv.links key other m
      by_cases equal : m = n
      · subst equal
        rw [there, link] at old
        simp only [Function.update_self, free]
        by_cases same : key = task.key
        · subst same
          by_cases linked : other = fd
          · subst linked
            simp [System.setBroker]
          · simp [System.setBroker, linked, old, Ne.symm linked]
        · simp [System.setBroker, same, old, Ne.symm same]
      · by_cases same : key = task.key
        · subst same
          by_cases linked : other = fd
          · subst linked
            simp [System.setBroker, equal, old]
          · simp [System.setBroker, equal, linked, old]
        · simp [System.setBroker, same, equal, old]
  unfold System.unlink
  dsimp only
  split
  · exact moved _ (Or.inl rfl) rfl
  · unfold System.settle
    rw [if_pos (by simp)]
    exact moved _ (Or.inr rfl) rfl

theorem Inv.begin (inv : Inv s) (there : s.tasks n = some task) (picked : task.phase = .picked) (ok : Bool) :
    Inv (s.begin n task ok) := by
  have inSlot : task.phase.inSlot = true := by rw [picked]; rfl
  have free : linkOf (some task) = none := by simp [linkOf, picked]
  unfold System.begin
  split
  · exact inv.settle there inSlot free
  · split
    · exact inv.phase there inSlot (Or.inl rfl) free.symm
    · exact inv.phase there inSlot (Or.inl rfl) free.symm
    · exact inv.phase there inSlot (Or.inl rfl) free.symm
    · exact inv.closeFd there inSlot free _
    · split
      · exact inv.serial there inSlot free _
      · exact inv.phase there inSlot (Or.inl rfl) free.symm

theorem Inv.turn (inv : Inv s) (there : s.tasks n = some task) {fd : Nat} (chained : task.phase = .chained fd)
    (ok : Bool) : Inv (s.turn n task fd ok) := by
  have inSlot : task.phase.inSlot = true := by rw [chained]; rfl
  have link : linkOf (some task) = some (task.key, fd) := by simp [linkOf, chained]
  unfold System.turn
  split
  · exact inv.phase there inSlot (Or.inl rfl) link.symm
  · exact inv.unlink there inSlot link false

theorem Inv.goOn (inv : Inv s) (there : s.tasks n = some task) {fd : Nat} {mayWrite : Bool}
    (resumed : task.phase = .resumed fd mayWrite) (ok : Bool) : Inv (s.goOn n task fd mayWrite ok) := by
  have inSlot : task.phase.inSlot = true := by rw [resumed]; rfl
  have free : linkOf (some task) = none := by simp [linkOf, resumed]
  unfold System.goOn
  split
  · split
    · exact inv.serial there inSlot free fd
    · exact inv.closeFd there inSlot free fd
  · split
    · exact inv.phase there inSlot (Or.inl rfl) free.symm
    · exact inv.settle there inSlot free

theorem Inv.opened (inv : Inv s) (there : s.tasks n = some task) (inSlot : task.phase.inSlot = true)
    (free : linkOf (some task) = none) : Inv (s.opened n task) := by
  unfold System.opened
  dsimp only
  have made := inv.tabled task.key ((s.brokers task.key).fds ++ [(s.brokers task.key).nextFd])
    ((s.brokers task.key).nextFd + 1)
  split
  · exact made.phase there inSlot (Or.inl rfl) free.symm
  · exact made.phase there inSlot (Or.inl rfl) free.symm
  · exact made.settle there inSlot free

theorem Inv.answered (inv : Inv s) (there : s.tasks n = some task) {call : HostCall} (host : task.phase = .host call)
    (answer : Answer) : Inv (s.answered n task call answer) := by
  have inSlot : task.phase.inSlot = true := by rw [host]; rfl
  have free (apart : ∀ fd, call ≠ .serial fd) : linkOf (some task) = none := by
    cases call <;> simp_all [linkOf]
  have link : ∀ fd, call = .serial fd → linkOf (some task) = some (task.key, fd) := by
    rintro fd rfl
    simp [linkOf, host]
  unfold System.answered
  split
  · exact inv.settle there inSlot (free (by simp))
  · exact inv
  · exact inv.settle there inSlot (free (by simp))
  · exact inv.opened there inSlot (free (by simp))
  · exact inv.settle there inSlot (free (by simp))
  · dsimp only
    exact (inv.tabled task.key _ _).phase there inSlot (Or.inl rfl) (free (by simp)).symm
  · exact inv.unlink there inSlot (link _ rfl) true
  · exact inv.unlink there inSlot (link _ rfl) false

end InSlot

/-! The lock and the scheduler. -/
section Waiting

variable {limits : Limits} {s : System} {n : Nat} {task : Task}

/-- What does not change while a queue is gone through. -/
structure Carried (s after : System) : Prop where
  links : ∀ m, linkOf (after.tasks m) = linkOf (s.tasks m)
  fine : (∀ m task, s.tasks m = some task → task.Fine) → ∀ m task, after.tasks m = some task → task.Fine
  bounded : (∀ m, s.tasks m ≠ none → m < s.next) → ∀ m, after.tasks m ≠ none → m < after.next
  brokers : after.brokers = s.brokers
  next : after.next = s.next

theorem Carried.refl (s : System) : Carried s s := ⟨fun _ => rfl, id, id, rfl, rfl⟩

theorem Carried.trans {s middle after : System} (first : Carried s middle) (second : Carried middle after) :
    Carried s after :=
  ⟨fun m => (second.links m).trans (first.links m), fun fine => second.fine (first.fine fine),
    fun bounded => second.bounded (first.bounded bounded), second.brokers.trans first.brokers,
    second.next.trans first.next⟩

/-- One operation goes from outside of any chain to outside of any chain. -/
theorem put_carried (within : (∀ m, s.tasks m ≠ none → m < s.next) → n < s.next) (free : linkOf (s.tasks n) = none)
    {state : Option Task} (stays : linkOf state = none) (fine : ∀ task, state = some task → task.Fine) :
    Carried s { s with tasks := Function.update s.tasks n state } := by
  refine ⟨?_, ?_, ?_, rfl, rfl⟩
  · intro m
    by_cases same : m = n
    · subst same
      simp [free, stays]
    · simp [same]
  · intro all m other isOther
    by_cases same : m = n
    · subst same
      exact fine other (by simpa using isOther)
    · simp only [Function.update_of_ne same] at isOther
      exact all m other isOther
  · intro all m isTask
    by_cases same : m = n
    · exact same ▸ within all
    · exact all m (by simpa [same] using isTask)

theorem setPhase_carried (there : s.tasks n = some task) {phase : Phase} (free : linkOf (some task) = none)
    (stays : linkOf (some { task with phase }) = none) (fine : ({ task with phase } : Task).Fine) :
    Carried s (s.setPhase n phase) := by
  rw [setPhase_eq there]
  apply put_carried (fun all => all n (by simp [there])) (there ▸ free) stays
  rintro _ ⟨⟩
  exact fine

/-- Who waits for the lock. -/
theorem waits_lock {key : String} {exclusive : Bool} {state : Option Task}
    (waits : lockClaim key state = .waits exclusive) :
    ∃ task, state = some task ∧ task.key = key ∧ task.phase = .locking ∧ task.exclusive = exclusive := by
  cases state with
  | none => cases waits
  | some task =>
      refine ⟨task, rfl, ?_⟩
      simp only [lockClaim] at waits
      split at waits
      · cases waits
      · rename_i same
        cases isPhase : task.phase <;> simp only [isPhase] at waits
        case locking => exact ⟨not_not.mp same, rfl, LockClaim.waits.inj waits⟩
        case ended slot held => cases held <;> simp only at waits <;> (try split at waits) <;> cases waits
        all_goals split at waits <;> cases waits

/-- Who waits for a slot. -/
theorem waits_slot {key : String} {state : Option Task} (waits : slotClaim state = .waits key) :
    ∃ task, state = some task ∧ task.key = key ∧ task.phase = .queued := by
  cases state with
  | none => cases waits
  | some task =>
      refine ⟨task, rfl, ?_⟩
      unfold slotClaim at waits
      cases isPhase : task.phase <;> simp only [isPhase] at waits
      case queued => exact ⟨SlotClaim.waits.inj waits, rfl⟩
      case ended slot held => cases slot <;> cases waits
      all_goals cases waits

/-- The lock is given to those who wait for it. -/
theorem locked_fold {key : String} {granted : List (Nat × Bool)}
    (given : Granted (fun m => lockClaim key (s.tasks m)) granted) (fine : ∀ m task, s.tasks m = some task → task.Fine) :
    let after := granted.foldl (fun s entry => s.setPhase entry.1 .granted) s
    (fun m => lockClaim key (after.tasks m)) = grants (fun m => lockClaim key (s.tasks m)) granted ∧
    (∀ other, other ≠ key → ∀ m, lockClaim other (after.tasks m) = lockClaim other (s.tasks m)) ∧
    (∀ m, slotClaim (after.tasks m) = slotClaim (s.tasks m)) ∧ after.scheduler = s.scheduler ∧ Carried s after := by
  induction granted generalizing s with
  | nil => exact ⟨rfl, fun _ _ _ => rfl, fun _ => rfl, rfl, Carried.refl s⟩
  | cons entry rest ih =>
      obtain ⟨m, exclusive⟩ := entry
      obtain ⟨task, there, isKey, locking, isExclusive⟩ := waits_lock given.1
      have lock : task.lock ≠ .none := by
        have := fine m task there
        rwa [Task.Fine, locking] at this
      have carried : Carried s (s.setPhase m .granted) :=
        setPhase_carried there (by simp [linkOf, locking]) rfl trivial
      have claim : ∀ other, lockClaim other (some { task with phase := .granted }) =
          if other = key then .holds exclusive else lockClaim other (s.tasks m) := by
        intro other
        by_cases same : other = key
        · subst same
          simp [lockClaim, isKey, lock, Task.exclusive, ← isExclusive]
        · have differs : task.key ≠ other := fun equal => same (equal.symm.trans isKey)
          simp [lockClaim, there, same, differs]
      have claims : (fun m' => lockClaim key ((s.setPhase m .granted).tasks m')) =
          Function.update (fun m' => lockClaim key (s.tasks m')) m (.holds exclusive) := by
        rw [setPhase_eq there]
        simp only [view_update, claim, if_true]
      obtain ⟨locks, others, slots, scheduler, later⟩ :=
        ih (s := s.setPhase m .granted) (claims ▸ given.2) (carried.fine fine)
      refine ⟨?_, ?_, ?_, scheduler, carried.trans later⟩
      · rw [List.foldl_cons, locks, claims]
        rfl
      · intro other differs m'
        rw [List.foldl_cons, others other differs]
        rw [setPhase_eq there]
        have kept : lockClaim other (some { task with phase := .granted }) = lockClaim other (s.tasks m) := by
          rw [claim, if_neg differs]
        exact congrFun (view_kept kept) m'
      · intro m'
        rw [List.foldl_cons, slots, setPhase_eq there]
        by_cases same : m' = m
        · subst same
          simp [there, slotClaim, locking]
        · simp [same]

/-- Items are taken that wait for a slot. -/
theorem scheduled_fold {taken : List (String × Nat)} (given : Taken (fun m => slotClaim (s.tasks m)) taken) :
    let after := taken.foldl (fun s entry => s.setPhase entry.2 .picked) s
    (fun m => slotClaim (after.tasks m)) = takes (fun m => slotClaim (s.tasks m)) taken ∧
    (∀ key m, lockClaim key (after.tasks m) = lockClaim key (s.tasks m)) ∧ after.scheduler = s.scheduler ∧
    Carried s after := by
  induction taken generalizing s with
  | nil => exact ⟨rfl, fun _ _ => rfl, rfl, Carried.refl s⟩
  | cons entry rest ih =>
      obtain ⟨key, m⟩ := entry
      obtain ⟨task, there, isKey, queued⟩ := waits_slot given.1
      have carried : Carried s (s.setPhase m .picked) :=
        setPhase_carried there (by simp [linkOf, queued]) rfl trivial
      have claims : (fun m' => slotClaim ((s.setPhase m .picked).tasks m')) =
          Function.update (fun m' => slotClaim (s.tasks m')) m (.holds key) := by
        rw [setPhase_eq there, view_update]
        simp only [slotClaim, isKey]
      obtain ⟨slots, locks, scheduler, later⟩ := ih (s := s.setPhase m .picked) (claims ▸ given.2)
      refine ⟨?_, ?_, scheduler, carried.trans later⟩
      · rw [List.foldl_cons, slots, claims]
        rfl
      · intro other m'
        rw [List.foldl_cons, locks, setPhase_eq there]
        by_cases same : m' = m
        · subst same
          simp [there, lockClaim, queued]
        · simp [same]

theorem Inv.rebuilt {after : System} (inv : Inv s) (links : ∀ m, linkOf (after.tasks m) = linkOf (s.tasks m))
    (chains : ∀ key, (after.brokers key).chains = (s.brokers key).chains)
    (fine : ∀ m task, after.tasks m = some task → task.Fine) (bounded : ∀ m, after.tasks m ≠ none → m < after.next)
    (next : after.next = s.next)
    (locks : ∀ key, (after.brokers key).lock.Agrees (fun m => lockClaim key (after.tasks m)) s.next)
    (slots : after.scheduler.Agrees (fun m => slotClaim (after.tasks m)) s.next) : Inv after where
  locks := fun key => next ▸ locks key
  slots := next ▸ slots
  links := fun key fd m => by rw [chains, links, inv.links]
  fine := fine
  bounded := bounded

/-- The state of an operation with this to give back. -/
def settled (task : Task) (slot held : Bool) : Option Task :=
  if slot || held then some { task with phase := .ended slot held } else none

theorem settle_eq (there : s.tasks n = some task) (slot held : Bool) :
    s.settle n slot held = { s with tasks := Function.update s.tasks n (settled task slot held) } := by
  unfold System.settle settled
  split
  · exact setPhase_eq there _
  · rfl

theorem settled_free (task : Task) (slot held : Bool) : linkOf (settled task slot held) = none := by
  unfold settled
  split <;> rfl

theorem settled_fine {slot held : Bool} (lock : held = true → task.lock ≠ .none) :
    ∀ other, settled task slot held = some other → other.Fine := by
  intro other isOther
  unfold settled at isOther
  split at isOther
  · rename_i left
    cases isOther
    exact ⟨by simpa using left, lock⟩
  · cases isOther

theorem settled_carried (there : s.tasks n = some task) (free : linkOf (some task) = none) {slot held : Bool}
    (lock : held = true → task.lock ≠ .none) :
    Carried s { s with tasks := Function.update s.tasks n (settled task slot held) } :=
  put_carried (fun all => all n (by simp [there])) (there ▸ free) (settled_free ..) (settled_fine lock)

theorem settled_lock (task : Task) (slot held : Bool) (key : String) :
    lockClaim key (settled task slot held) =
      if task.key = key ∧ held = true ∧ task.lock ≠ .none then .holds task.exclusive else .off := by
  cases slot <;> cases held <;> by_cases same : task.key = key <;> by_cases lock : task.lock = .none <;>
    simp [settled, lockClaim, Task.exclusive, same, lock]

theorem settled_slot (task : Task) (slot held : Bool) :
    slotClaim (settled task slot held) = if slot = true then .holds task.key else .off := by
  cases slot <;> cases held <;> simp [settled, slotClaim]

/-- The scheduler goes on with those it has taken. -/
theorem Inv.scheduled (inv : Inv s) {middle : System} (carried : Carried s middle)
    (locks : ∀ key m, lockClaim key (middle.tasks m) = lockClaim key (s.tasks m))
    {result : Scheduler × List (String × Nat)}
    (agrees : result.1.Agrees (takes (fun m => slotClaim (middle.tasks m)) result.2) s.next)
    (taken : Taken (fun m => slotClaim (middle.tasks m)) result.2) : Inv (middle.scheduled result) := by
  obtain ⟨slots, kept, scheduler, later⟩ := scheduled_fold (s := { middle with scheduler := result.1 }) taken
  apply inv.rebuilt (fun m => (later.links m).trans (carried.links m))
    (fun key => congrArg (fun brokers => (brokers key).chains) (later.brokers.trans carried.brokers))
    (later.fine (carried.fine inv.fine)) (later.bounded (carried.bounded inv.bounded))
    (later.next.trans carried.next)
  · intro key
    have same : (fun m => lockClaim key ((middle.scheduled result).tasks m)) = fun m => lockClaim key (s.tasks m) :=
      funext fun m => (kept key m).trans (locks key m)
    have lock : ((middle.scheduled result).brokers key).lock = (s.brokers key).lock :=
      congrArg (fun brokers => (brokers key).lock) (later.brokers.trans carried.brokers)
    change ((middle.scheduled result).brokers key).lock.Agrees _ _
    rw [lock]
    exact same ▸ inv.locks key
  · change (middle.scheduled result).scheduler.Agrees (fun m => slotClaim ((middle.scheduled result).tasks m)) _
    have same : (fun m => slotClaim ((middle.scheduled result).tasks m)) =
        takes (fun m => slotClaim (middle.tasks m)) result.2 := slots
    have isResult : (middle.scheduled result).scheduler = result.1 := scheduler
    rw [same, isResult]
    exact agrees

theorem Inv.submit (inv : Inv s) (capacity : 0 < limits.globalCap) (there : s.tasks n = some task)
    (granted : task.phase = .granted) : Inv (s.submit limits n task) := by
  have free : linkOf (some task) = none := by simp [linkOf, granted]
  have off : slotClaim (s.tasks n) = .off := by simp [there, slotClaim, granted]
  have claim (key : String) : lockClaim key (s.tasks n) =
      if task.key = key ∧ task.lock ≠ .none then .holds task.exclusive else .off := by
    by_cases same : task.key = key <;> by_cases lock : task.lock = .none <;>
      simp [there, lockClaim, granted, same, lock]
  unfold System.submit
  split
  · rw [settle_eq there]
    have carried : Carried s { s with tasks := Function.update s.tasks n (settled task false (task.lock ≠ .none)) } :=
      settled_carried there free (by simp)
    apply inv.rebuilt carried.links (fun _ => rfl) (carried.fine inv.fine) (carried.bounded inv.bounded) rfl
    · intro key
      have kept : lockClaim key (settled task false (task.lock ≠ .none)) = lockClaim key (s.tasks n) := by
        rw [settled_lock, claim]
        simp
      rw [view_kept kept]
      exact inv.locks key
    · have kept : slotClaim (settled task false (task.lock ≠ .none)) = slotClaim (s.tasks n) := by
        rw [settled_slot, off]
        simp
      rw [view_kept kept]
      exact inv.slots
  · rename_i result submitted
    have within := inv.bounded n (by simp [there])
    obtain ⟨agrees, taken⟩ := submit_agrees limits capacity inv.slots within off submitted
    have claims : (fun m => slotClaim ((s.setPhase n .queued).tasks m)) =
        Function.update (fun m => slotClaim (s.tasks m)) n (.waits task.key) := by
      rw [setPhase_eq there, view_update]
      rfl
    have carried : Carried s (s.setPhase n .queued) := setPhase_carried there free rfl trivial
    apply inv.scheduled carried _ (claims ▸ agrees) (claims ▸ taken)
    intro key
    have kept : lockClaim key (some { task with phase := .queued }) = lockClaim key (s.tasks n) := by
      simp [there, lockClaim, granted]
    rw [setPhase_eq there]
    exact congrFun (view_kept kept)

/-- The slot goes to the next ones. -/
theorem Inv.freeSlot (inv : Inv s) (capacity : 0 < limits.globalCap) (there : s.tasks n = some task) {held : Bool}
    (ended : task.phase = .ended true held) : Inv (s.freeSlot limits n task held) := by
  have fine := inv.fine n task there
  rw [Task.Fine, ended] at fine
  have holds : slotClaim (s.tasks n) = .holds task.key := by simp [there, slotClaim, ended]
  obtain ⟨agrees, taken⟩ := finished_agrees limits capacity inv.slots holds
  have claims : (fun m => slotClaim ((s.settle n false held).tasks m)) =
      Function.update (fun m => slotClaim (s.tasks m)) n .off := by
    rw [settle_eq there, view_update, settled_slot]
    rfl
  have carried : Carried s (s.settle n false held) := by
    rw [settle_eq there]
    exact settled_carried there (by simp [linkOf, ended]) fine.2
  apply inv.scheduled carried _ (claims ▸ agrees) (claims ▸ taken)
  intro key
  have kept : lockClaim key (settled task false held) = lockClaim key (s.tasks n) := by
    rw [settled_lock, there]
    cases held <;> by_cases same : task.key = key <;> by_cases lock : task.lock = .none <;>
      simp [lockClaim, ended, same, lock]
  rw [settle_eq there]
  exact congrFun (view_kept kept)

/-- The lock goes on with those it was given to. -/
theorem Inv.locked (inv : Inv s) {middle : System} (carried : Carried s middle) {key : String}
    (others : ∀ other, other ≠ key → ∀ m, lockClaim other (middle.tasks m) = lockClaim other (s.tasks m))
    (slots : ∀ m, slotClaim (middle.tasks m) = slotClaim (s.tasks m)) (scheduler : middle.scheduler = s.scheduler)
    {result : RwLock × List (Nat × Bool)}
    (agrees : result.1.Agrees (grants (fun m => lockClaim key (middle.tasks m)) result.2) s.next)
    (granted : Granted (fun m => lockClaim key (middle.tasks m)) result.2) : Inv (middle.locked key result) := by
  obtain ⟨locks, elsewhere, kept, isScheduler, later⟩ :=
    locked_fold (s := middle.setBroker key { middle.brokers key with lock := result.1 }) granted
      (carried.fine inv.fine)
  have brokers : (middle.locked key result).brokers =
      Function.update s.brokers key { s.brokers key with lock := result.1 } := by
    rw [← carried.brokers]
    exact later.brokers
  apply @Inv.rebuilt s (middle.locked key result) inv (fun m => (later.links m).trans (carried.links m)) _
    (later.fine (carried.fine inv.fine)) (later.bounded (carried.bounded inv.bounded))
    (later.next.trans carried.next)
  · intro other
    rw [brokers]
    by_cases same : other = key
    · subst same
      simpa using locks.symm ▸ agrees
    · have claims : (fun m => lockClaim other ((middle.locked key result).tasks m)) =
          fun m => lockClaim other (s.tasks m) :=
        funext fun m => (elsewhere other same m).trans (others other same m)
      rw [claims, Function.update_of_ne same]
      exact inv.locks other
  · have claims : (fun m => slotClaim ((middle.locked key result).tasks m)) = fun m => slotClaim (s.tasks m) :=
      funext fun m => (kept m).trans (slots m)
    have same : (middle.locked key result).scheduler = s.scheduler := isScheduler.trans scheduler
    rw [claims, same]
    exact inv.slots
  · intro other
    rw [brokers]
    by_cases same : other = key
    · subst same
      simp
    · simp [same]

theorem Inv.release (inv : Inv s) (there : s.tasks n = some task) {slot : Bool}
    (ended : task.phase = .ended slot true) : Inv (s.release n task slot) := by
  have fine := inv.fine n task there
  rw [Task.Fine, ended] at fine
  have lock := fine.2 rfl
  have holds : lockClaim task.key (s.tasks n) = .holds task.exclusive := by simp [there, lockClaim, ended, lock]
  obtain ⟨agrees, granted⟩ := release_agrees (inv.locks task.key) holds
  have claims : (fun m => lockClaim task.key ((s.settle n slot false).tasks m)) =
      Function.update (fun m => lockClaim task.key (s.tasks m)) n .off := by
    rw [settle_eq there, view_update, settled_lock]
    simp
  have carried : Carried s (s.settle n slot false) := by
    rw [settle_eq there]
    exact settled_carried there (by simp [linkOf, ended]) (by simp)
  have slots : slotClaim (settled task slot false) = slotClaim (s.tasks n) := by
    rw [settled_slot, there]
    cases slot <;> simp [slotClaim, ended]
  apply inv.locked carried _ _ _ (claims ▸ agrees) (claims ▸ granted)
  · intro other differs
    have kept : lockClaim other (settled task slot false) = lockClaim other (s.tasks n) := by
      rw [settled_lock, there]
      simp [lockClaim, Ne.symm differs]
    rw [settle_eq there]
    exact congrFun (view_kept kept)
  · rw [settle_eq there]
    exact congrFun (view_kept slots)
  · rw [settle_eq there]

/-- One number more. -/
theorem Inv.next (inv : Inv s) : Inv { s with next := s.next + 1 } :=
  { inv with
    locks := fun key => agrees_next (inv.locks key)
    slots := slots_agree_next inv.slots
    bounded := fun m isTask => Nat.lt_succ_of_lt (inv.bounded m isTask) }

/-- A new operation. -/
theorem Inv.added (inv : Inv s) (task : Task) (free : linkOf (some task) = none) (fine : task.Fine) :
    Carried { s with next := s.next + 1 }
      { s with next := s.next + 1, tasks := Function.update s.tasks s.next (some task) } ∧
    s.tasks s.next = none := by
  have none : s.tasks s.next = none := by
    by_contra isTask
    exact absurd (inv.bounded s.next isTask) (Nat.lt_irrefl _)
  refine ⟨put_carried (fun _ => Nat.lt_succ_self _) (by simp [none, linkOf]) free ?_, none⟩
  rintro _ ⟨⟩
  exact fine

theorem Inv.request (inv : Inv s) (capacity : 0 < limits.globalCap) (key : String) (op : Op) :
    Inv (s.request limits key op) := by
  unfold System.request
  split
  · exact inv
  · split
    · exact inv
    · dsimp only
      split
      · obtain ⟨carried, none⟩ := inv.added ⟨key, op, .none, .granted⟩ rfl trivial
        apply Inv.submit _ capacity (Function.update_self ..) rfl
        apply inv.next.rebuilt carried.links (fun _ => rfl) (carried.fine inv.fine) (carried.bounded inv.next.bounded)
          rfl
        · intro other
          have kept : lockClaim other (some ⟨key, op, .none, .granted⟩) = lockClaim other (s.tasks s.next) := by
            simp [none, lockClaim]
          simp only [view_kept kept]
          exact inv.next.locks other
        · have kept : slotClaim (some ⟨key, op, .none, .granted⟩) = slotClaim (s.tasks s.next) := by
            simp [none, slotClaim]
          simp only [view_kept kept]
          exact inv.next.slots
      · rename_i lock _ _ isLock
        have asks : lock ≠ .none := by simpa using isLock
        obtain ⟨carried, none⟩ := inv.added ⟨key, op, lock, .locking⟩ rfl asks
        have off : lockClaim key (s.tasks s.next) = .off := by simp [none, lockClaim]
        obtain ⟨agrees, granted⟩ :=
          acquire_agrees (inv.next.locks key) (Nat.lt_succ_self _) off (lock = Lock.exclusive)
        have claims : (fun m => lockClaim key (Function.update s.tasks s.next (some ⟨key, op, lock, .locking⟩) m)) =
            Function.update (fun m => lockClaim key (s.tasks m)) s.next (.waits (lock = Lock.exclusive)) := by
          rw [view_update]
          simp [lockClaim, Task.exclusive]
        apply inv.next.locked carried _ _ rfl (claims ▸ agrees) (claims ▸ granted)
        · intro other differs
          have kept : lockClaim other (some ⟨key, op, lock, .locking⟩) = lockClaim other (s.tasks s.next) := by
            simp [none, lockClaim, Ne.symm differs]
          exact congrFun (view_kept kept)
        · have kept : slotClaim (some ⟨key, op, lock, .locking⟩) = slotClaim (s.tasks s.next) := by
            simp [none, slotClaim]
          exact congrFun (view_kept kept)

theorem rejected_task (inv : Inv s) {key : String} {m : Nat} (member : m ∈ (s.scheduler.forget key).2) :
    ∃ task, s.tasks m = some task ∧ task.phase = .queued ∧ rejectAll s.tasks (s.scheduler.forget key).2 m =
      if task.lock ≠ .none then some { task with phase := .ended false true } else none := by
  obtain ⟨task, there, -, queued⟩ := waits_slot ((forget_rejected inv.slots.toCounts key m).mp member)
  exact ⟨task, there, queued, by simp [rejectAll, member, there]⟩

theorem rejectAll_kept {tasks : Nat → Option Task} {rejected : List Nat} {m : Nat} (absent : m ∉ rejected) :
    rejectAll tasks rejected m = tasks m := if_neg absent

/-- The items of a worker that has ended are rejected; what has a slot keeps it. -/
theorem Inv.close (inv : Inv s) (key : String) : Inv (s.close key) := by
  unfold System.close
  split
  · exact inv
  · dsimp only
    have broker : ∀ other, (Function.update s.brokers key { s.brokers key with fds := [], closed := true } other).lock =
        (s.brokers other).lock ∧
        (Function.update s.brokers key { s.brokers key with fds := [], closed := true } other).chains =
        (s.brokers other).chains := by
      intro other
      by_cases same : other = key
      · subst same
        simp
      · simp [same]
    refine @Inv.rebuilt s _ inv ?_ (fun other => (broker other).2) ?_ ?_ rfl ?_ ?_
    · intro m
      by_cases member : m ∈ (s.scheduler.forget key).2
      · obtain ⟨task, there, queued, isRejected⟩ := rejected_task inv member
        simp only [isRejected, there]
        by_cases lock : task.lock = .none <;> simp [linkOf, queued, lock]
      · simp only [rejectAll_kept member]
    · intro m other isOther
      by_cases member : m ∈ (s.scheduler.forget key).2
      · obtain ⟨task, there, queued, isRejected⟩ := rejected_task inv member
        simp only [isRejected] at isOther
        split at isOther
        · rename_i lock
          cases isOther
          exact ⟨Or.inr rfl, fun _ => lock⟩
        · cases isOther
      · simp only [rejectAll_kept member] at isOther
        exact inv.fine m other isOther
    · intro m isTask
      by_cases member : m ∈ (s.scheduler.forget key).2
      · obtain ⟨task, there, -, -⟩ := rejected_task inv member
        exact inv.bounded m (by simp [there])
      · simp only [rejectAll_kept member] at isTask
        exact inv.bounded m isTask
    · intro other
      have same : (fun m => lockClaim other (rejectAll s.tasks (s.scheduler.forget key).2 m)) =
          fun m => lockClaim other (s.tasks m) := by
        funext m
        by_cases member : m ∈ (s.scheduler.forget key).2
        · obtain ⟨task, there, queued, isRejected⟩ := rejected_task inv member
          rw [isRejected, there]
          by_cases lock : task.lock = .none <;> simp [lockClaim, queued, lock]
        · rw [rejectAll_kept member]
      simp only [(broker other).1, same]
      exact inv.locks other
    · have same : (fun m => slotClaim (rejectAll s.tasks (s.scheduler.forget key).2 m)) =
          forgets (fun m => slotClaim (s.tasks m)) (s.scheduler.forget key).2 := by
        funext m
        unfold forgets
        split
        · rename_i member
          obtain ⟨task, -, -, isRejected⟩ := rejected_task inv member
          rw [isRejected]
          by_cases lock : task.lock = .none <;> simp [slotClaim, lock]
        · rename_i absent
          rw [rejectAll_kept absent]
      simp only [same]
      exact forget_agrees inv.slots key

theorem Inv.act (inv : Inv s) (capacity : 0 < limits.globalCap) (there : s.tasks n = some task) (act : Act) :
    Inv (s.act limits n task act) := by
  unfold System.act
  split
  case h_1 call answer host => exact inv.answered there host answer
  case h_2 granted => exact inv.submit capacity there granted
  case h_3 ok picked => exact inv.begin there picked ok
  case h_4 fd ok chained =>
    split
    · exact inv.turn there chained ok
    · exact inv
  case h_5 fd mayWrite ok resumed => exact inv.goOn there resumed ok
  case h_6 fd last draining =>
    split
    · exact inv.phase there (by rw [draining]; rfl) (Or.inl rfl) (by simp [linkOf, draining])
    · exact inv
  case h_7 held ended => exact inv.freeSlot capacity there ended
  case h_8 slot ended => exact inv.release there ended
  case h_9 => exact inv

theorem Inv.step (inv : Inv s) (capacity : 0 < limits.globalCap) (event : Event) : Inv (s.step limits event) := by
  cases event with
  | request key op => exact inv.request capacity key op
  | close key => exact inv.close key
  | act n act =>
      unfold System.step
      dsimp only
      split
      · rename_i task there
        exact inv.act capacity there act
      · exact inv

theorem Inv.run (inv : Inv s) (capacity : 0 < limits.globalCap) (events : List Event) : Inv (s.run limits events) := by
  induction events generalizing s with
  | nil => exact inv
  | cons event rest ih => exact ih (inv.step capacity event)

end Waiting

/-! Nobody waits for ever. -/
section Progress

/-- A step that nothing outside has to make: the lock, the scheduler or a chain goes on with an operation. -/
def Enabled (s : System) (n : Nat) (task : Task) : Act → Prop
  | .resume => task.phase = .granted
  | .begin _ => task.phase = .picked
  | .turn _ => ∃ fd, task.phase = .chained fd ∧ ((s.brokers task.key).chains fd).head? = some n
  | .goOn _ => ∃ fd mayWrite, task.phase = .resumed fd mayWrite
  | .drained => ∃ fd last, task.phase = .draining fd last ∧ ∀ link, last = some link → link ∉ (s.brokers task.key).chains fd
  | .freeSlot => ∃ held, task.phase = .ended true held
  | .release => ∃ slot, task.phase = .ended slot true
  | .answer _ => False

def phaseOf (s : System) (n : Nat) : Option Phase := (s.tasks n).map (·.phase)

variable (limits : Limits)

/-- An operation that waits for nothing but the host, in its slot: with the host's last answer it goes on. Or one that
can go on, and does in that step. -/
def Moves (s : System) : Prop :=
  ∃ n task, s.tasks n = some task ∧
    ((∃ call, task.phase = .host call ∧ slotClaim (some task) = .holds task.key ∧
        ∀ answer, answer ≠ .more → phaseOf (s.step limits (.act n (.answer answer))) n ≠ some task.phase) ∨
      ∃ act, Enabled s n task act ∧ phaseOf (s.step limits (.act n act)) n ≠ some task.phase)

variable {limits} {s : System} {n : Nat} {task : Task}

theorem phase_setPhase (there : s.tasks n = some task) (phase : Phase) : phaseOf (s.setPhase n phase) n = some phase := by
  simp [phaseOf, System.setPhase, there]

theorem phase_settle (there : s.tasks n = some task) (slot held : Bool) :
    phaseOf (s.settle n slot held) n = if slot || held then some (.ended slot held) else none := by
  unfold System.settle
  split
  · exact phase_setPhase there _
  · simp [phaseOf]

/-- Whoever is given something is in that phase then, and nobody else changes. -/
theorem phase_given {Item : Type} (who : Item → Nat) (phase : Phase) (given : List Item) (s : System) :
    phaseOf (given.foldl (fun s item => s.setPhase (who item) phase) s) n = phaseOf s n ∨
      phaseOf (given.foldl (fun s item => s.setPhase (who item) phase) s) n = some phase := by
  induction given generalizing s with
  | nil => exact Or.inl rfl
  | cons item rest ih =>
      have first : phaseOf (s.setPhase (who item) phase) n = phaseOf s n ∨
          phaseOf (s.setPhase (who item) phase) n = some phase := by
        by_cases same : n = who item
        · subst same
          cases there : s.tasks (who item) with
          | none => exact Or.inl (by simp [phaseOf, System.setPhase, there])
          | some task => exact Or.inr (phase_setPhase there phase)
        · exact Or.inl (by simp [phaseOf, System.setPhase, same])
      rcases ih (s.setPhase (who item) phase) with kept | now
      · rw [List.foldl_cons, kept]
        exact first
      · exact Or.inr now

theorem phase_submit (there : s.tasks n = some task) : phaseOf (s.submit limits n task) n ≠ some .granted := by
  unfold System.submit
  split
  · rw [phase_settle there]
    split <;> simp
  · rename_i result _
    have queued := phase_setPhase there .queued
    rcases phase_given (n := n) Prod.snd .picked result.2 { s.setPhase n .queued with scheduler := result.1 } with
      kept | now
    · rw [System.scheduled, kept]
      intro same
      have clash := queued.symm.trans same
      cases clash
    · rw [System.scheduled, now]
      simp

/-- An operation on a descriptor is in its chain, closes it, or has ended. -/
theorem phase_serial (there : s.tasks n = some task) (fd : Nat) :
    phaseOf (s.serial n task fd) n = some (.chained fd) ∨
      phaseOf (s.serial n task fd) n = some (.ended true (task.lock ≠ .none)) := by
  unfold System.serial
  dsimp only
  split
  · exact Or.inl (phase_setPhase (s := s.setBroker task.key _) there _)
  · exact Or.inr (by simp [phase_settle there])

theorem phase_closeFd (there : s.tasks n = some task) (fd : Nat) :
    (∃ last, phaseOf (s.closeFd n task fd) n = some (.draining fd last)) ∨
      phaseOf (s.closeFd n task fd) n = some (.ended true (task.lock ≠ .none)) := by
  unfold System.closeFd
  dsimp only
  split
  · exact Or.inl ⟨_, phase_setPhase (s := s.setBroker task.key _) there _⟩
  · exact Or.inr (by simp [phase_settle there])

theorem phase_unlink (there : s.tasks n = some task) (fd : Nat) (ok : Bool) :
    phaseOf (s.unlink n task fd ok) n = some (.resumed fd ok) ∨
      phaseOf (s.unlink n task fd ok) n = some (.ended true (task.lock ≠ .none)) := by
  unfold System.unlink
  dsimp only
  split
  · exact Or.inl (phase_setPhase (s := s.setBroker task.key _) there _)
  · exact Or.inr (by simp [phase_settle (s := s.setBroker task.key _) there])

theorem phase_opened (there : s.tasks n = some task) :
    (∃ fd, phaseOf (s.opened n task) n = some (.resumed fd true)) ∨
      phaseOf (s.opened n task) n = some (.ended true (task.lock ≠ .none)) := by
  unfold System.opened
  dsimp only
  split
  · exact Or.inl ⟨_, phase_setPhase (s := s.setBroker task.key _) there _⟩
  · exact Or.inl ⟨_, phase_setPhase (s := s.setBroker task.key _) there _⟩
  · exact Or.inr (by simp [phase_settle (s := s.setBroker task.key _) there])

theorem phase_begin (there : s.tasks n = some task) (ok : Bool) : phaseOf (s.begin n task ok) n ≠ some .picked := by
  have serial := phase_serial there
  have closing := phase_closeFd there
  unfold System.begin
  split
  · simp [phase_settle there]
  · split
    · simp [phase_setPhase there]
    · simp [phase_setPhase there]
    · simp [phase_setPhase there]
    · rename_i fd _
      rcases closing fd with ⟨last, now⟩ | now <;> simp [now]
    · split
      · rename_i fd _
        rcases serial fd with now | now <;> simp [now]
      · simp [phase_setPhase there]

theorem phase_goOn (there : s.tasks n = some task) (fd : Nat) (mayWrite ok : Bool) :
    phaseOf (s.goOn n task fd mayWrite ok) n ≠ some (.resumed fd mayWrite) := by
  unfold System.goOn
  split
  · split
    · rcases phase_serial there fd with now | now <;> simp [now]
    · rcases phase_closeFd there fd with ⟨last, now⟩ | now <;> simp [now]
  · split
    · simp [phase_setPhase there]
    · simp [phase_settle there]

/-- An enabled step takes the operation on. -/
theorem enabled_goes (there : s.tasks n = some task) {act : Act} (enabled : Enabled s n task act) :
    phaseOf (s.step limits (.act n act)) n ≠ some task.phase := by
  simp only [System.step, there]
  cases act with
  | answer answer => cases enabled
  | resume =>
      have isPhase : task.phase = .granted := enabled
      simpa only [System.act, isPhase] using phase_submit there
  | begin ok =>
      have isPhase : task.phase = .picked := enabled
      simpa only [System.act, isPhase] using phase_begin there ok
  | turn ok =>
      obtain ⟨fd, isPhase, first⟩ := enabled
      simp only [System.act, isPhase, first, if_true, System.turn]
      split
      · simp [phase_setPhase there]
      · rcases phase_unlink there fd false with now | now <;> simp [now]
  | goOn ok =>
      obtain ⟨fd, mayWrite, isPhase⟩ := enabled
      simpa only [System.act, isPhase] using phase_goOn there fd mayWrite ok
  | drained =>
      obtain ⟨fd, last, isPhase, settled⟩ := enabled
      have all : (last.all fun link => link ∉ (s.brokers task.key).chains fd) = true := by
        cases last with
        | none => rfl
        | some link => simpa using settled link rfl
      simp only [System.act, isPhase, all, if_true]
      simp [phase_setPhase there]
  | freeSlot =>
      obtain ⟨held, isPhase⟩ := enabled
      simp only [System.act, isPhase, System.freeSlot, System.scheduled]
      have settled := phase_settle there false held
      rcases phase_given (n := n) Prod.snd .picked (s.scheduler.finished limits task.key).2
        { s.settle n false held with scheduler := (s.scheduler.finished limits task.key).1 } with kept | now
      · rw [kept]
        intro same
        have clash := settled.symm.trans same
        split at clash <;> cases clash
      · rw [now]
        simp
  | release =>
      obtain ⟨slot, isPhase⟩ := enabled
      have settled := phase_settle there slot false
      have went : phaseOf (s.release n task slot) n ≠ some (.ended slot true) := by
        unfold System.release System.locked
        rcases phase_given (n := n) Prod.fst .granted ((s.brokers task.key).lock.release (task.lock = Lock.exclusive)).2
          ((s.settle n slot false).setBroker task.key
            { (s.settle n slot false).brokers task.key with
              lock := ((s.brokers task.key).lock.release (task.lock = Lock.exclusive)).1 }) with kept | now
        · rw [kept]
          intro same
          have clash := settled.symm.trans same
          split at clash <;> cases clash
        · rw [now]
          simp
      cases slot <;> simpa only [System.act, isPhase] using went

/-- So does the host's last answer. -/
theorem answered_goes (there : s.tasks n = some task) {call : HostCall} (host : task.phase = .host call) {answer : Answer}
    (last : answer ≠ .more) : phaseOf (s.step limits (.act n (.answer answer))) n ≠ some task.phase := by
  simp only [System.step, there, System.act, host]
  unfold System.answered
  split
  · simp [phase_settle there]
  · exact absurd rfl last
  · simp [phase_settle there]
  · rcases phase_opened there with ⟨fd, now⟩ | now <;> simp [now]
  · simp [phase_settle there]
  · rename_i fd _
    have closing := phase_setPhase (s := s.setBroker task.key { s.brokers task.key with
      fds := (s.brokers task.key).fds.filter fun other => other ≠ fd }) there (.host .closing)
    intro same
    have clash := closing.symm.trans same
    cases clash
  · rename_i fd
    rcases phase_unlink there fd true with now | now <;> simp [now]
  · rename_i fd
    rcases phase_unlink there fd false with now | now <;> simp [now]

theorem moves_of_enabled (there : s.tasks n = some task) (act : Act) (enabled : Enabled s n task act) : Moves limits s :=
  ⟨n, task, there, Or.inr ⟨act, enabled, enabled_goes there enabled⟩⟩

theorem moves_of_host (there : s.tasks n = some task) {call : HostCall} (host : task.phase = .host call) :
    Moves limits s :=
  ⟨n, task, there, Or.inl ⟨call, host, by simp [slotClaim, host], fun _ last => answered_goes there host last⟩⟩

theorem chain_moves (inv : Inv s) {key : String} {fd : Nat} (some : (s.brokers key).chains fd ≠ []) :
    Moves limits s := by
  obtain ⟨first, rest, chain⟩ := List.exists_cons_of_ne_nil some
  have link := (inv.links key fd first).mp (by simp [chain])
  cases there : s.tasks first with
  | none => simp [there, linkOf] at link
  | some task =>
      rw [there] at link
      cases isPhase : task.phase <;> simp only [linkOf, isPhase, reduceCtorEq] at link
      case host call => exact moves_of_host there isPhase
      case chained other =>
        obtain ⟨rfl, rfl⟩ := Prod.mk.inj (Option.some.inj link)
        exact moves_of_enabled there (.turn true) ⟨other, isPhase, by simp [chain]⟩

/-- Whoever has a slot waits for the host, or in a chain, or goes on. -/
theorem slot_moves (inv : Inv s) (there : s.tasks n = some task) {key : String}
    (holds : slotClaim (some task) = .holds key) : Moves limits s := by
  cases isPhase : task.phase with
  | locking => simp [slotClaim, isPhase] at holds
  | granted => simp [slotClaim, isPhase] at holds
  | queued => simp [slotClaim, isPhase] at holds
  | picked => exact moves_of_enabled there (.begin true) isPhase
  | host call => exact moves_of_host there isPhase
  | chained fd =>
      have member := (inv.links task.key fd n).mpr (by simp [there, linkOf, isPhase])
      exact chain_moves inv (List.ne_nil_of_mem member)
  | resumed fd mayWrite => exact moves_of_enabled there (.goOn true) ⟨fd, mayWrite, isPhase⟩
  | draining fd last =>
      by_cases settled : ∀ link, last = some link → link ∉ (s.brokers task.key).chains fd
      · exact moves_of_enabled there .drained ⟨fd, last, isPhase, settled⟩
      · obtain ⟨link, -, member⟩ : ∃ link, last = some link ∧ link ∈ (s.brokers task.key).chains fd := by
          simpa using settled
        exact chain_moves inv (List.ne_nil_of_mem member)
  | ended slot held =>
      cases slot with
      | false => simp [slotClaim, isPhase] at holds
      | true => exact moves_of_enabled there .freeSlot ⟨held, isPhase⟩

/-- Whoever waits for a slot waits for one that has a slot. -/
theorem queued_moves (inv : Inv s) (there : s.tasks n = some task) (queued : task.phase = .queued) : Moves limits s := by
  have waits : slotClaim (s.tasks n) = .waits task.key := by simp [there, slotClaim, queued]
  obtain ⟨m, key, holds⟩ := slot_holder inv.slots waits
  cases holder : s.tasks m with
  | none => simp [holder, slotClaim] at holds
  | some other =>
      rw [holder] at holds
      exact slot_moves inv holder holds

/-- Whoever has the lock waits for a slot, or has one, or goes on. -/
theorem lock_moves (inv : Inv s) (there : s.tasks n = some task) {key : String} {exclusive : Bool}
    (holds : lockClaim key (some task) = .holds exclusive) : Moves limits s := by
  cases isPhase : task.phase with
  | locking =>
      simp only [lockClaim, isPhase] at holds
      split at holds <;> cases holds
  | granted => exact moves_of_enabled there .resume isPhase
  | queued => exact queued_moves inv there isPhase
  | picked => exact @slot_moves limits s n task inv there task.key (by simp [slotClaim, isPhase])
  | host call => exact @slot_moves limits s n task inv there task.key (by simp [slotClaim, isPhase])
  | chained fd => exact @slot_moves limits s n task inv there task.key (by simp [slotClaim, isPhase])
  | resumed fd mayWrite => exact @slot_moves limits s n task inv there task.key (by simp [slotClaim, isPhase])
  | draining fd last => exact @slot_moves limits s n task inv there task.key (by simp [slotClaim, isPhase])
  | ended slot held =>
      cases held with
      | false => simp [lockClaim, isPhase] at holds
      | true => exact moves_of_enabled there .release ⟨slot, isPhase⟩

theorem unfinished_moves (inv : Inv s) (there : s.tasks n = some task) : Moves limits s := by
  cases isPhase : task.phase with
  | locking =>
      have waits : lockClaim task.key (s.tasks n) = .waits task.exclusive := by simp [there, lockClaim, isPhase]
      obtain ⟨m, exclusive, holds⟩ := lock_holder (inv.locks task.key) waits
      cases holder : s.tasks m with
      | none => simp [holder, lockClaim] at holds
      | some other =>
          rw [holder] at holds
          exact lock_moves inv holder holds
  | granted => exact moves_of_enabled there .resume isPhase
  | queued => exact queued_moves inv there isPhase
  | picked => exact moves_of_enabled there (.begin true) isPhase
  | host call => exact moves_of_host there isPhase
  | chained fd => exact @slot_moves limits s n task inv there task.key (by simp [slotClaim, isPhase])
  | resumed fd mayWrite => exact moves_of_enabled there (.goOn true) ⟨fd, mayWrite, isPhase⟩
  | draining fd last => exact @slot_moves limits s n task inv there task.key (by simp [slotClaim, isPhase])
  | ended slot held =>
      have fine := inv.fine n task there
      rw [Task.Fine, isPhase] at fine
      rcases fine.1 with rfl | rfl
      · exact moves_of_enabled there .freeSlot ⟨held, isPhase⟩
      · exact moves_of_enabled there .release ⟨slot, isPhase⟩

theorem never_deadlocked (limits : Limits) (capacity : 0 < limits.globalCap) (events : List Event)
    (unfinished : ∃ n, ((start.run limits events).tasks n).isSome) : Moves limits (start.run limits events) := by
  obtain ⟨n, isTask⟩ := unfinished
  obtain ⟨task, there⟩ := Option.isSome_iff_exists.mp isTask
  exact unfinished_moves (start_inv.run capacity events) there

/-- One slot and two workers: a mkdir waits for the lock of a stat, which waits for the other worker's slot. -/
theorem two_workers_move :
    let path : FileNamespace.PathArg := .text ⟨true, [.name "data"]⟩
    let limits : Limits := ⟨1, 0, 0⟩
    Moves limits (start.run limits [.request "lamp#2" (.lstat path), .request "camera#1" (.stat path),
      .request "camera#1" (.mkdir path false 0), .act 0 .resume, .act 1 .resume]) :=
  never_deadlocked _ (by decide) _ ⟨2, by decide⟩

end Progress

end Countinghouse.BrokerProgress
