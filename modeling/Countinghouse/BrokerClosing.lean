import Countinghouse.DescriptorDuty

/-!
The end of a worker: `bridge.close()` among the operations of the worker's file broker.
An operation waits for the read/write lock, then in the scheduler's queue, and runs on the
host action by action; the actions of running operations come in any order. `close()`
rejects what is in the queue, empties the table and closes the files that were in it.

The scheduler's other workers appear as the moments at which it takes an operation from
the queue; the bridge's deadline only decides what the worker is answered.
-/

namespace Countinghouse.BrokerClosing

open BrokerWorld FsBroker DescriptorDuty Obligations HostCalls
open Program (Prog)

/-- One worker's broker and the cap of its queue (`queueCap`). -/
structure Bridge where
  broker : Broker
  queueCap : Nat

inductive Phase where
  /-- In the queue of the lock. -/
  | waiting
  /-- The lock was given; `handleOne` has not gone on yet. -/
  | granted
  /-- In the scheduler's queue. -/
  | queued
  /-- Taken from the queue; `item.task` has not been called yet. -/
  | picked
  | running (code : Code Value)
  /-- Rejected by the scheduler; the lock has not been released yet. -/
  | refused

structure Task where
  op : Op
  lock : Lock
  phase : Phase

structure Machine where
  world : World
  /-- `RwLock`: its readers, its writer and its queue. -/
  readers : Nat
  writer : Bool
  waiters : List (Nat × Bool)
  /-- The scheduler's queue of this worker. -/
  queue : List Nat
  /-- The operations that `handle` counts in `inFlight`, by number. -/
  tasks : Nat → Option Task
  next : Nat
  /-- Files that `closeAll` has still to close. -/
  closing : List Nat
  /-- Operations whose work on the host has begun, and those rejected before. -/
  begun : List Nat
  rejected : List Nat
  /-- What had begun when `close()` was called. -/
  atClose : Option (List Nat)

def Machine.fresh (world : World) : Machine :=
  ⟨world, 0, false, [], [], fun _ => none, 0, [], [], [], none⟩

section Lock

def setPhase (tasks : Nat → Option Task) (n : Nat) (phase : Phase) : Nat → Option Task :=
  Function.update tasks n ((tasks n).map fun task => { task with phase := phase })

/-- `next.resolve()` -/
def grant (tasks : Nat → Option Task) (n : Nat) : Nat → Option Task :=
  match tasks n with
  | some ⟨_, _, .waiting⟩ => setPhase tasks n .granted
  | _ => tasks

/-- `RwLock.pump`: the waiters the lock can be given to get it, in order. -/
def pumpLock : List (Nat × Bool) → Machine → Machine
  | [], machine => { machine with waiters := [] }
  | (n, exclusive) :: rest, machine =>
      if machine.writer || (exclusive && 0 < machine.readers) then
        { machine with waiters := (n, exclusive) :: rest }
      else if exclusive then
        { machine with writer := true, waiters := rest, tasks := grant machine.tasks n }
      else
        pumpLock rest
          { machine with readers := machine.readers + 1, tasks := grant machine.tasks n }

/-- `RwLock.acquire` -/
def acquire (machine : Machine) (n : Nat) (exclusive : Bool) : Machine :=
  pumpLock (machine.waiters ++ [(n, exclusive)]) machine

/-- `RwLock.release` -/
def release (machine : Machine) : Lock → Machine
  | .none => machine
  | .shared => pumpLock machine.waiters { machine with readers := machine.readers - 1 }
  | .exclusive => pumpLock machine.waiters { machine with writer := false }

end Lock

inductive Event where
  | request (op : Op)
  | resume (n : Nat)
  /-- `FsScheduler.pump` takes the first of the queue. -/
  | pick
  | begin (n : Nat)
  | act (n : Nat)
  | finish (n : Nat)
  | close
  | closeFile (handle : Nat)

section Step

variable (bridge : Bridge)

/-- `FsScheduler.submit` for an operation that is in flight. -/
def submit (machine : Machine) (n : Nat) : Machine :=
  if bridge.queueCap ≤ machine.queue.length then
    { machine with tasks := setPhase machine.tasks n .refused }
  else { machine with tasks := setPhase machine.tasks n .queued, queue := machine.queue ++ [n] }

/-- `handleOne` up to its first `await`. -/
def request (machine : Machine) (op : Op) : Machine :=
  let n := machine.next
  let counted := { machine with next := n + 1 }
  if machine.world.closed then { counted with rejected := n :: machine.rejected }
  else
    match lockOf op with
    | none => { counted with rejected := n :: machine.rejected }
    | some lock =>
        let entered := { counted with tasks := Function.update machine.tasks n (some ⟨op, lock, .waiting⟩) }
        match lock with
        | .none => submit bridge entered n
        | .shared => acquire entered n false
        | .exclusive => acquire entered n true

/-- `handleOne` with the lock. -/
def resume (machine : Machine) (n : Nat) : Machine :=
  match machine.tasks n with
  | some ⟨_, lock, .granted⟩ =>
      let cleared := if lock = .exclusive then { machine.world with cache := [] } else machine.world
      submit bridge { machine with world := cleared } n
  | _ => machine

def pick (machine : Machine) : Machine :=
  match machine.queue with
  | [] => machine
  | n :: rest =>
      match machine.tasks n with
      | some ⟨_, _, .queued⟩ => { machine with tasks := setPhase machine.tasks n .picked, queue := rest }
      | _ => { machine with queue := rest }

def begin (machine : Machine) (n : Nat) : Machine :=
  match machine.tasks n with
  | some ⟨op, _, .picked⟩ =>
      { machine with
        tasks := setPhase machine.tasks n (.running (runOp bridge.broker op))
        begun := n :: machine.begun }
  | _ => machine

/-- One action of a running operation. -/
def act (machine : Machine) (n : Nat) : Machine :=
  match machine.tasks n with
  | some ⟨_, _, .running (.act action next)⟩ =>
      { machine with
        world := (handle action machine.world).2
        tasks := setPhase machine.tasks n (.running (next (handle action machine.world).1)) }
  | _ => machine

/-- An operation that is done, or was rejected, releases its lock and is counted no more. -/
def finish (machine : Machine) (n : Nat) : Machine :=
  match machine.tasks n with
  | some ⟨_, lock, .refused⟩ =>
      release { machine with
        tasks := Function.update machine.tasks n none
        rejected := n :: machine.rejected } lock
  | some ⟨_, lock, .running (.done _)⟩ | some ⟨_, lock, .running (.fail _)⟩ =>
      release { machine with tasks := Function.update machine.tasks n none } lock
  | _ => machine

/-- `FsScheduler.forget`: whoever is in the queue is rejected. -/
def forget (machine : Machine) : Machine :=
  { machine with
    queue := []
    tasks := fun n => (machine.tasks n).map fun task =>
      match task.phase with
      | .queued => { task with phase := .refused }
      | _ => task }

/-- `fds.values()`, as the files to close. -/
def tableFiles (world : World) : List Nat :=
  world.fds.filterMap fun fd => (world.entries.lookup fd).map Entry.handle

/-- `bridge.close()` up to its first `await`: `scheduler.forget`, then `broker.closeAll`. -/
def close (machine : Machine) : Machine :=
  if machine.world.closed then machine
  else
    { forget machine with
      world := { machine.world with closed := true, fds := [] }
      closing := tableFiles machine.world
      atClose := some machine.begun }

def step (machine : Machine) : Event → Machine
  | .request op => request bridge machine op
  | .resume n => resume bridge machine n
  | .pick => pick machine
  | .begin n => begin bridge machine n
  | .act n => act machine n
  | .finish n => finish machine n
  | .close => close machine
  | .closeFile handle =>
      if handle ∈ machine.closing then
        { machine with
          world := (BrokerWorld.handle (.closeFile handle) machine.world).2
          closing := machine.closing.filter fun other => other != handle }
      else machine

def run (machine : Machine) (events : List Event) : Machine := events.foldl (step bridge) machine

end Step

/-- `broker.idle()` resolves. -/
def Machine.idle (machine : Machine) : Prop := ∀ n, machine.tasks n = none

/-- Nothing lingers. -/
structure Settled (machine : Machine) : Prop where
  /-- With `close()` done and the broker idle, the table is empty and no file is open. -/
  empty : machine.world.closed = true → machine.closing = [] → machine.idle →
    machine.world.fds = [] ∧ machine.world.files = []
  /-- What had not begun by the time of `close()` does not begin, -/
  late : ∀ early, machine.atClose = some early → ∀ n ∈ machine.begun, n ∈ early
  /-- and it is rejected, once it is no longer in flight. -/
  told : ∀ early, machine.atClose = some early → ∀ n < machine.next, n ∉ early → machine.tasks n = none →
    n ∈ machine.rejected

/-! When a step keeps to this. -/
section Meets

/-- At `close()` nobody waits for the lock or is between two queues. -/
def placed (machine : Machine) : Bool :=
  (List.range machine.next).all fun n =>
    match machine.tasks n with
    | some ⟨_, _, .waiting⟩ | some ⟨_, _, .granted⟩ | some ⟨_, _, .picked⟩ => false
    | _ => true

/-- A file that is in the table, or was. -/
def tabled (world : World) (handle : Nat) : Bool := world.entries.any fun entry => entry.2.handle == handle

def answers (world : World) (handle : Nat) (act : FdAct) : Bool :=
  match (world.onFile handle act).1 with
  | .ok _ => true
  | .error _ => false

/-- An `open` comes to the table before `close()`, and the host answers what is asked of a file just opened. -/
def mayAct (world : World) (op : Op) : Act → Bool
  | .fdAdd _ => !(stays op && world.closed)
  | .onFile handle act => !opens op || tabled world handle || answers world handle act
  | _ => true

def meets (machine : Machine) : Event → Bool
  | .close => machine.world.closed || placed machine
  | .act n =>
      match machine.tasks n with
      | some ⟨op, _, .running (.act action _)⟩ => mayAct machine.world op action
      | _ => true
  | _ => true

def meetsAll (bridge : Bridge) : Machine → List Event → Bool
  | _, [] => true
  | machine, event :: rest => meets machine event && meetsAll bridge (step bridge machine event) rest

end Meets

/-! Descriptors without the rest of the world. -/
section Tables

/-- What of a world the descriptors are about; `owners` has the file of each descriptor. -/
structure Table where
  files : List Nat
  nextHandle : Nat
  fds : List Nat
  owners : List (Nat × Nat)
  nextFd : Nat
  closed : Bool

def view (world : World) : Table where
  files := world.files.map Prod.fst
  nextHandle := world.nextHandle
  fds := world.fds
  owners := world.entries.map fun entry => (entry.1, entry.2.handle)
  nextFd := world.nextFd
  closed := world.closed

theorem owners_lookup (world : World) (fd : Nat) :
    (view world).owners.lookup fd = (world.entries.lookup fd).map Entry.handle := by
  simp only [view]
  induction world.entries with
  | nil => rfl
  | cons entry rest ih =>
      obtain ⟨key, value⟩ := entry
      simp only [List.map_cons, List.lookup_cons, ih]
      cases fd == key <;> rfl

theorem view_applied (world : World) (effect : Effect) : view (world.applied effect) = view world := by
  simp [view, World.applied, Function.comp_def]

theorem view_passed (world : World) : view world.passed = view world := rfl

theorem view_setFile (world : World) (handle : Nat) (file : OpenFile) :
    view { world with files := setFile world.files handle file } = view world := by
  simp only [view, setFile, List.map_map, Table.mk.injEq, and_true]
  apply List.map_congr_left
  intro entry _
  by_cases same : entry.1 = handle <;> simp [same]

theorem view_onFile (world : World) (handle : Nat) (act : FdAct) : view (world.onFile handle act).2 = view world := by
  unfold World.onFile
  split
  · rfl
  · dsimp only
    split
    · rw [view_setFile, view_passed, view_applied]
    · rw [view_setFile, view_passed, view_applied]
    · rw [view_passed, view_applied]

/-- A quiet action leaves the table as it is. -/
theorem view_quiet (world : World) (action : Act) (quiet : Quiet action) :
    view (handle action world).2 = view world := by
  cases action with
  | openFile => exact quiet.elim
  | closeFile => exact quiet.elim
  | fdAdd => exact quiet.elim
  | fdDrop => exact quiet.elim
  | call call => exact (view_passed _).trans (view_applied world _)
  | onFile handle act => exact view_onFile world handle act
  | setPos fd pos =>
      simp only [handle, view, List.map_map, Table.mk.injEq, true_and, and_true]
      apply List.map_congr_left
      intro entry _
      by_cases same : entry.1 = fd <;> simp [same]
  | reserve bytes entries =>
      simp only [handle]
      split <;> rfl
  | report rule target =>
      simp only [handle, World.report]
      split <;> rfl
  | _ => rfl

/-- An open adds one file, under the next handle, or none. -/
theorem view_open (world : World) (path : HostTree.Path) (flags : OpenFlags) (mode : Nat) :
    ((world.open path flags mode).1 = .ok world.nextHandle ∧
        view (world.open path flags mode).2 = { view world with
          files := (view world).files ++ [world.nextHandle]
          nextHandle := world.nextHandle + 1 }) ∨
      (∃ code, (world.open path flags mode).1 = .error code) ∧ view (world.open path flags mode).2 = view world := by
  have same := view_applied world (world.outcome (.openFile path flags mode)).1
  unfold World.open
  dsimp only
  split
  · left
    refine ⟨rfl, ?_⟩
    rw [← same]
    simp [view, World.passed]
  · exact .inr ⟨⟨_, rfl⟩, same⟩
  · exact .inr ⟨⟨_, rfl⟩, same⟩

/-- No number of a file or of a descriptor is one that is still to be given. -/
structure Table.Numbered (table : Table) : Prop where
  handles : ∀ handle ∈ table.files, handle < table.nextHandle
  descriptors : ∀ entry ∈ table.owners, entry.1 < table.nextFd

theorem fresh_numbered (host : Host) (quota : DiskQuota.Quota Int) (chances : Nat → Chance) :
    (view (World.fresh host quota chances)).Numbered :=
  ⟨fun _ member => absurd member List.not_mem_nil, fun _ member => absurd member List.not_mem_nil⟩

end Tables

/-! Every open file has someone who closes it. -/
section Accounts

variable {table : Table} {closing : List Nat} {duties : Nat → Duty} {n : Nat}

/-- Some operation has the file in hand. -/
def held (duties : Nat → Duty) (handle : Nat) : Prop :=
  ∃ n, handle ∈ (duties n).fresh ∨ handle ∈ (duties n).taken

/-- Some operation has to take the descriptor out of the table. -/
def owed (duties : Nat → Duty) (fd : Nat) : Prop := ∃ n, fd ∈ (duties n).tabled

theorem held_update {duty : Duty} {handle : Nat}
    (keeps : handle ∈ (duties n).fresh ∨ handle ∈ (duties n).taken → handle ∈ duty.fresh ∨ handle ∈ duty.taken)
    (isHeld : held duties handle) : held (Function.update duties n duty) handle := by
  obtain ⟨m, has⟩ := isHeld
  by_cases same : m = n
  · subst same
    exact ⟨m, by simpa using keeps has⟩
  · exact ⟨m, by simpa [same] using has⟩

theorem owed_update {duty : Duty} {fd : Nat} (keeps : fd ∈ (duties n).tabled → fd ∈ duty.tabled)
    (isOwed : owed duties fd) : owed (Function.update duties n duty) fd := by
  obtain ⟨m, has⟩ := isOwed
  by_cases same : m = n
  · subst same
    exact ⟨m, by simpa using keeps has⟩
  · exact ⟨m, by simpa [same] using has⟩

/-- The file is in the table. -/
def inTable (table : Table) (handle : Nat) : Prop := ∃ fd ∈ table.fds, table.owners.lookup fd = some handle

structure Accounts (table : Table) (closing : List Nat) (duties : Nat → Duty) : Prop where
  files : ∀ handle ∈ table.files, held duties handle ∨ inTable table handle ∨ handle ∈ closing
  /-- After `close()` a descriptor is in the table only for the time of an operation. -/
  fds : table.closed = true → ∀ fd ∈ table.fds, owed duties fd
  file : ∀ n fd handle, (duties n).file fd = some handle → table.owners.lookup fd = some handle
  keys : ∀ entry ∈ table.owners, entry.1 < table.nextFd ∧ entry.2 < table.nextHandle
  fresh : ∀ n, ∀ handle ∈ (duties n).fresh, handle < table.nextHandle ∧ ∀ entry ∈ table.owners, entry.2 ≠ handle
  apart : ∀ n m handle, handle ∈ (duties n).fresh → handle ∈ (duties m).fresh → n = m

/-- A change of one operation's duty that leaves the table as it is. -/
theorem Accounts.edit {duty : Duty} (accounts : Accounts table closing duties)
    (fresh : duty.fresh = (duties n).fresh) (taken : duty.taken = (duties n).taken)
    (tabled : ∀ fd ∈ table.fds, fd ∈ (duties n).tabled → fd ∈ duty.tabled)
    (file : ∀ fd handle, duty.file fd = some handle → table.owners.lookup fd = some handle) :
    Accounts table closing (Function.update duties n duty) := by
  have isFresh (m : Nat) : (Function.update duties n duty m).fresh = (duties m).fresh := by
    by_cases same : m = n
    · subst same
      simpa using fresh
    · simp [same]
  constructor
  · intro handle member
    rcases accounts.files handle member with isHeld | other
    · exact .inl (held_update (by rw [fresh, taken]; exact id) isHeld)
    · exact .inr other
  · intro closed fd member
    exact owed_update (tabled fd member) (accounts.fds closed fd member)
  · intro m fd handle known
    by_cases same : m = n
    · subst same
      exact file fd handle (by simpa using known)
    · exact accounts.file m fd handle (by simpa [same] using known)
  · exact accounts.keys
  · intro m handle member
    exact accounts.fresh m handle (isFresh m ▸ member)
  · intro m k handle first second
    exact accounts.apart m k handle (isFresh m ▸ first) (isFresh k ▸ second)

theorem Accounts.opened (accounts : Accounts table closing duties) :
    Accounts { table with files := table.files ++ [table.nextHandle], nextHandle := table.nextHandle + 1 } closing
      (Function.update duties n { duties n with fresh := table.nextHandle :: (duties n).fresh }) := by
  have isFresh (m handle : Nat) (member : handle ∈ (Function.update duties n
      { duties n with fresh := table.nextHandle :: (duties n).fresh } m).fresh) :
      (m = n ∧ handle = table.nextHandle) ∨ handle ∈ (duties m).fresh := by
    by_cases same : m = n
    · subst same
      simpa using member
    · exact .inr (by simpa [same] using member)
  have unknown (m : Nat) : table.nextHandle ∉ (duties m).fresh :=
    fun member => absurd (accounts.fresh m _ member).1 (lt_irrefl _)
  constructor
  · intro handle member
    rcases List.mem_append.mp member with there | isNew
    · rcases accounts.files handle there with isHeld | other
      · exact .inl (held_update (Or.imp_left (List.mem_cons_of_mem _)) isHeld)
      · exact .inr other
    · exact .inl ⟨n, .inl (by simp [List.mem_singleton.mp isNew])⟩
  · intro closed fd member
    exact owed_update id (accounts.fds closed fd member)
  · intro m fd handle known
    by_cases same : m = n
    · subst same
      exact accounts.file m fd handle (by simpa using known)
    · exact accounts.file m fd handle (by simpa [same] using known)
  · intro entry member
    have bound := accounts.keys entry member
    exact ⟨bound.1, Nat.lt_succ_of_lt bound.2⟩
  · intro m handle member
    rcases isFresh m handle member with ⟨-, rfl⟩ | there
    · exact ⟨Nat.lt_succ_self _, fun entry member => (accounts.keys entry member).2.ne⟩
    · have bound := accounts.fresh m handle there
      exact ⟨Nat.lt_succ_of_lt bound.1, bound.2⟩
  · intro m k handle first second
    rcases isFresh m handle first with ⟨rfl, rfl⟩ | first
    · rcases isFresh k _ second with ⟨rfl, -⟩ | second
      · rfl
      · exact absurd second (unknown k)
    · rcases isFresh k handle second with ⟨-, isNew⟩ | second
      · exact absurd (isNew ▸ first) (unknown m)
      · exact accounts.apart m k handle first second

theorem mem_without {xs : List Nat} {x y : Nat} : y ∈ without xs x ↔ y ∈ xs ∧ y ≠ x := by
  simp [without]

/-- A file is closed by whoever does it. -/
theorem Accounts.closed {handle : Nat} (accounts : Accounts table closing duties) :
    Accounts { table with files := without table.files handle } closing
      (Function.update duties n { duties n with
        fresh := without (duties n).fresh handle
        taken := without (duties n).taken handle }) := by
  have isFresh (m other : Nat) (member : other ∈ (Function.update duties n { duties n with
      fresh := without (duties n).fresh handle
      taken := without (duties n).taken handle } m).fresh) : other ∈ (duties m).fresh := by
    by_cases same : m = n
    · subst same
      exact without_sub other (by simpa using member)
    · simpa [same] using member
  constructor
  · intro other member
    obtain ⟨there, differs⟩ := mem_without.mp member
    rcases accounts.files other there with isHeld | rest
    · refine .inl (held_update (Or.imp ?_ ?_) isHeld)
      · exact fun member => mem_without.mpr ⟨member, differs⟩
      · exact fun member => mem_without.mpr ⟨member, differs⟩
    · exact .inr rest
  · intro closed fd member
    exact owed_update id (accounts.fds closed fd member)
  · intro m fd other known
    by_cases same : m = n
    · subst same
      exact accounts.file m fd other (by simpa using known)
    · exact accounts.file m fd other (by simpa [same] using known)
  · exact accounts.keys
  · exact fun m other member => accounts.fresh m other (isFresh m other member)
  · exact fun m k other first second => accounts.apart m k other (isFresh m other first) (isFresh k other second)

theorem lookup_snoc {xs : List (Nat × Nat)} {key value fd handle : Nat} (found : xs.lookup fd = some handle) :
    (xs ++ [(key, value)]).lookup fd = some handle := by
  rw [List.lookup_append, found, Option.some_or]

theorem Accounts.unused (accounts : Accounts table closing duties) : table.owners.lookup table.nextFd = none := by
  rw [List.lookup_eq_none_iff]
  intro entry member
  have bound := (accounts.keys entry member).1
  simp only [bne_iff_ne, ne_eq]
  omega

/-- The file an operation has just opened comes into the table. -/
theorem Accounts.added {handle : Nat} {stays : Bool} (accounts : Accounts table closing duties)
    (own : handle ∈ (duties n).fresh) (before : stays = true → table.closed = false) :
    Accounts { table with
        fds := table.fds ++ [table.nextFd]
        owners := table.owners ++ [(table.nextFd, handle)]
        nextFd := table.nextFd + 1 } closing
      (Function.update duties n { duties n with
        fresh := without (duties n).fresh handle
        tabled := if stays then (duties n).tabled else table.nextFd :: (duties n).tabled
        file := Function.update (duties n).file table.nextFd (some handle) }) := by
  have found : (table.owners ++ [(table.nextFd, handle)]).lookup table.nextFd = some handle := by
    simp [List.lookup_append, accounts.unused]
  have isFresh (m other : Nat) (member : other ∈ (Function.update duties n { duties n with
      fresh := without (duties n).fresh handle
      tabled := if stays then (duties n).tabled else table.nextFd :: (duties n).tabled
      file := Function.update (duties n).file table.nextFd (some handle) } m).fresh) :
      other ∈ (duties m).fresh ∧ other ≠ handle := by
    by_cases same : m = n
    · subst same
      exact mem_without.mp (by simpa using member)
    · have there : other ∈ (duties m).fresh := by simpa [same] using member
      refine ⟨there, ?_⟩
      rintro rfl
      exact same (accounts.apart m n other there own)
  constructor
  · intro other member
    rcases accounts.files other member with isHeld | ⟨fd, fdThere, isFile⟩ | rest
    · by_cases same : other = handle
      · subst same
        exact .inr (.inl ⟨table.nextFd, by simp, found⟩)
      · refine .inl (held_update (Or.imp_left ?_) isHeld)
        exact fun member => mem_without.mpr ⟨member, same⟩
    · exact .inr (.inl ⟨fd, List.mem_append_left _ fdThere, lookup_snoc isFile⟩)
    · exact .inr (.inr rest)
  · intro closed fd member
    rcases List.mem_append.mp member with there | isNew
    · refine owed_update (fun member => ?_) (accounts.fds closed fd there)
      cases stays with
      | true => exact member
      | false => exact List.mem_cons_of_mem _ member
    · cases stays with
      | true => simp [before rfl] at closed
      | false => exact ⟨n, by simp [List.mem_singleton.mp isNew]⟩
  · intro m fd other known
    by_cases same : m = n
    · subst same
      by_cases sameFd : fd = table.nextFd
      · subst sameFd
        have isHandle : handle = other := by simpa using known
        exact isHandle ▸ found
      · exact lookup_snoc (accounts.file m fd other (by simpa [sameFd] using known))
    · exact lookup_snoc (accounts.file m fd other (by simpa [same] using known))
  · intro entry member
    rcases List.mem_append.mp member with there | isNew
    · have bound := accounts.keys entry there
      exact ⟨Nat.lt_succ_of_lt bound.1, bound.2⟩
    · rw [List.mem_singleton.mp isNew]
      exact ⟨Nat.lt_succ_self _, (accounts.fresh n handle own).1⟩
  · intro m other member
    obtain ⟨there, differs⟩ := isFresh m other member
    have bound := accounts.fresh m other there
    refine ⟨bound.1, fun entry member => ?_⟩
    rcases List.mem_append.mp member with old | isNew
    · exact bound.2 entry old
    · rw [List.mem_singleton.mp isNew]
      exact differs.symm
  · intro m k other first second
    exact accounts.apart m k other (isFresh m other first).1 (isFresh k other second).1

/-- A descriptor is taken out of the table, and its file is in hand again. -/
theorem Accounts.dropped {fd : Nat} (accounts : Accounts table closing duties)
    (known : ((duties n).file fd).isSome) :
    Accounts { table with fds := without table.fds fd } closing
      (Function.update duties n { duties n with
        taken := ((duties n).file fd).toList ++ (duties n).taken
        tabled := without (duties n).tabled fd }) := by
  obtain ⟨own, isOwn⟩ := Option.isSome_iff_exists.mp known
  have isFile := accounts.file n fd own isOwn
  have isFresh (m other : Nat) (member : other ∈ (Function.update duties n { duties n with
      taken := ((duties n).file fd).toList ++ (duties n).taken
      tabled := without (duties n).tabled fd } m).fresh) : other ∈ (duties m).fresh := by
    by_cases same : m = n
    · subst same
      simpa using member
    · simpa [same] using member
  constructor
  · intro other member
    rcases accounts.files other member with isHeld | ⟨key, there, isOther⟩ | rest
    · exact .inl (held_update (Or.imp_right (List.mem_append_right _)) isHeld)
    · by_cases same : key = fd
      · subst same
        have isHandle : own = other := Option.some_inj.mp (isFile.symm.trans isOther)
        exact .inl ⟨n, .inr (by simp [isOwn, isHandle])⟩
      · exact .inr (.inl ⟨key, mem_without.mpr ⟨there, same⟩, isOther⟩)
    · exact .inr (.inr rest)
  · intro closed key member
    obtain ⟨there, differs⟩ := mem_without.mp member
    refine owed_update (fun member => ?_) (accounts.fds closed key there)
    exact mem_without.mpr ⟨member, differs⟩
  · intro m key other known
    by_cases same : m = n
    · subst same
      exact accounts.file m key other (by simpa using known)
    · exact accounts.file m key other (by simpa [same] using known)
  · exact accounts.keys
  · exact fun m other member => accounts.fresh m other (isFresh m other member)
  · exact fun m k other first second => accounts.apart m k other (isFresh m other first) (isFresh k other second)

theorem accounts_start (world : World) (noFiles : world.files = []) (noEntries : world.entries = [])
    (noFds : world.fds = []) : Accounts (view world) [] fun _ => Duty.none := by
  constructor
  · simp [view, noFiles]
  · simp [view, noFds]
  · intro n fd handle known
    cases known
  · simp [view, noEntries]
  · exact fun _ handle member => absurd member List.not_mem_nil
  · exact fun _ _ handle member => absurd member List.not_mem_nil

/-- One action of one operation. -/
theorem accounts_act {world : World} {stays : Bool} {action : Act}
    (accounts : Accounts (view world) closing duties) (may : mayDo (duties n) action)
    (before : ∀ entry, action = .fdAdd entry → stays = true → world.closed = false) :
    Accounts (view (handle action world).2) closing
      (Function.update duties n (afterAct stays (duties n) action (handle action world).1)) := by
  have kept : Accounts (view world) closing (Function.update duties n (duties n)) := by
    rwa [Function.update_eq_self]
  cases action with
  | openFile path flags mode =>
      change Accounts (view (world.open path flags mode).2) closing (Function.update duties n
        (afterAct stays (duties n) (.openFile path flags mode) (world.open path flags mode).1))
      rcases view_open world path flags mode with ⟨isOpen, isView⟩ | ⟨⟨code, failed⟩, isView⟩
      · rw [isOpen, isView]
        exact accounts.opened
      · rw [failed, isView]
        exact kept
  | closeFile handle =>
      have isView : view (BrokerWorld.handle (.closeFile handle) world).2 =
          { view world with files := without (view world).files handle } := by
        simp [BrokerWorld.handle, view, without, List.filter_map, Function.comp_def]
      rw [isView]
      exact accounts.closed
  | fdAdd entry =>
      have isView : view (BrokerWorld.handle (.fdAdd entry) world).2 = { view world with
          fds := (view world).fds ++ [(view world).nextFd]
          owners := (view world).owners ++ [((view world).nextFd, entry.handle)]
          nextFd := (view world).nextFd + 1 } := by
        simp [BrokerWorld.handle, view]
      rw [isView]
      exact accounts.added may (before entry rfl)
  | fdDrop fd =>
      exact accounts.dropped may
  | fdOpen fd =>
      rw [view_quiet _ _ (by trivial)]
      by_cases live : fd ∈ world.fds
      · simpa [BrokerWorld.handle, afterAct, live] using kept
      · have isAfter : afterAct stays (duties n) (.fdOpen fd) (BrokerWorld.handle (.fdOpen fd) world).1 =
            { duties n with tabled := without (duties n).tabled fd } := by
          simp [BrokerWorld.handle, afterAct, live]
        rw [isAfter]
        refine accounts.edit rfl rfl (fun key there member => ?_) (accounts.file n)
        refine mem_without.mpr ⟨member, ?_⟩
        rintro rfl
        exact live there
  | entryOf fd =>
      rw [view_quiet _ _ (by trivial)]
      cases found : world.entries.lookup fd with
      | none => simpa [BrokerWorld.handle, afterAct, found] using kept
      | some entry =>
          have isAfter : afterAct stays (duties n) (.entryOf fd) (BrokerWorld.handle (.entryOf fd) world).1 =
              { duties n with file := Function.update (duties n).file fd (some entry.handle) } := by
            simp [BrokerWorld.handle, afterAct, found]
          rw [isAfter]
          refine accounts.edit rfl rfl (fun _ _ member => member) fun key handle known => ?_
          by_cases same : key = fd
          · subst same
            rw [owners_lookup, found]
            simpa using known
          · exact accounts.file n key handle (by simpa [same] using known)
  | _ =>
      rw [view_quiet _ _ (by trivial)]
      exact kept

end Accounts

/-! The operations on their way. -/
section Shifts

/-- The operation has begun or has been rejected. -/
def Phase.ended : Phase → Prop
  | .running _ | .refused => True
  | _ => False

def Phase.begun : Phase → Prop
  | .running _ => True
  | _ => False

theorem ended_of_begun {phase : Phase} (begun : phase.begun) : phase.ended := by
  cases phase with
  | running code => trivial
  | _ => exact begun.elim

/-- Operations that have not begun change places. -/
def Moves (before after : Nat → Option Task) : Prop :=
  ∀ n, after n = before n ∨
    ∃ op lock old new, before n = some ⟨op, lock, old⟩ ∧ after n = some ⟨op, lock, new⟩ ∧
      ¬ old.ended ∧ ¬ new.begun

theorem moves_refl (tasks : Nat → Option Task) : Moves tasks tasks := fun _ => .inl rfl

theorem Moves.trans {before middle after : Nat → Option Task} (first : Moves before middle)
    (second : Moves middle after) : Moves before after := by
  intro n
  rcases second n with same | ⟨op, lock, old, new, isOld, isNew, notEnded, notBegun⟩
  · rw [same]
    exact first n
  · rcases first n with same | ⟨op', lock', old', new', isOld', isNew', notEnded', -⟩
    · exact .inr ⟨op, lock, old, new, same ▸ isOld, isNew, notEnded, notBegun⟩
    · rw [isNew'] at isOld
      cases isOld
      exact .inr ⟨op, lock, old', new, isOld', isNew, notEnded', notBegun⟩

theorem moves_setPhase {tasks : Nat → Option Task} {n : Nat} {op : Op} {lock : Lock} {old new : Phase}
    (isTask : tasks n = some ⟨op, lock, old⟩) (notEnded : ¬ old.ended) (notBegun : ¬ new.begun) :
    Moves tasks (setPhase tasks n new) := by
  intro m
  by_cases same : m = n
  · subst same
    exact .inr ⟨op, lock, old, new, isTask, by simp [setPhase, isTask], notEnded, notBegun⟩
  · exact .inl (by simp [setPhase, same])

theorem moves_grant (tasks : Nat → Option Task) (n : Nat) : Moves tasks (grant tasks n) := by
  unfold grant
  split
  · next isTask => exact moves_setPhase isTask id id
  · exact moves_refl tasks

/-- Nothing happens but that operations change places. -/
structure Shift (before after : Machine) : Prop where
  view : view after.world = view before.world
  closing : after.closing = before.closing
  next : after.next = before.next
  begun : after.begun = before.begun
  rejected : after.rejected = before.rejected
  atClose : after.atClose = before.atClose
  tasks : Moves before.tasks after.tasks

theorem Shift.trans {before middle after : Machine} (first : Shift before middle) (second : Shift middle after) :
    Shift before after where
  view := second.view.trans first.view
  closing := second.closing.trans first.closing
  next := second.next.trans first.next
  begun := second.begun.trans first.begun
  rejected := second.rejected.trans first.rejected
  atClose := second.atClose.trans first.atClose
  tasks := first.tasks.trans second.tasks

variable {machine : Machine}

theorem shift_pumpLock (waiters : List (Nat × Bool)) (machine : Machine) :
    Shift machine (pumpLock waiters machine) := by
  induction waiters generalizing machine with
  | nil => exact ⟨rfl, rfl, rfl, rfl, rfl, rfl, moves_refl _⟩
  | cons waiter rest ih =>
      obtain ⟨n, exclusive⟩ := waiter
      simp only [pumpLock]
      split
      · exact ⟨rfl, rfl, rfl, rfl, rfl, rfl, moves_refl _⟩
      · split
        · exact ⟨rfl, rfl, rfl, rfl, rfl, rfl, moves_grant _ n⟩
        · have granted : Shift machine
              { machine with readers := machine.readers + 1, tasks := grant machine.tasks n } :=
            ⟨rfl, rfl, rfl, rfl, rfl, rfl, moves_grant _ n⟩
          exact granted.trans (ih _)

theorem shift_release (machine : Machine) (lock : Lock) : Shift machine (release machine lock) := by
  cases lock with
  | none => exact ⟨rfl, rfl, rfl, rfl, rfl, rfl, moves_refl _⟩
  | shared =>
      have less : Shift machine { machine with readers := machine.readers - 1 } :=
        ⟨rfl, rfl, rfl, rfl, rfl, rfl, moves_refl _⟩
      exact less.trans (shift_pumpLock _ _)
  | exclusive =>
      have free : Shift machine { machine with writer := false } := ⟨rfl, rfl, rfl, rfl, rfl, rfl, moves_refl _⟩
      exact free.trans (shift_pumpLock _ _)

theorem shift_submit (bridge : Bridge) {n : Nat} {op : Op} {lock : Lock} {old : Phase}
    (isTask : machine.tasks n = some ⟨op, lock, old⟩) (notEnded : ¬ old.ended) :
    Shift machine (submit bridge machine n) := by
  unfold submit
  split
  · exact ⟨rfl, rfl, rfl, rfl, rfl, rfl, moves_setPhase isTask notEnded id⟩
  · exact ⟨rfl, rfl, rfl, rfl, rfl, rfl, moves_setPhase isTask notEnded id⟩

theorem shift_resume (bridge : Bridge) (machine : Machine) (n : Nat) :
    Shift machine (resume bridge machine n) := by
  unfold resume
  split
  · next op lock isTask =>
      have cleared : Shift machine { machine with
          world := if lock = .exclusive then { machine.world with cache := [] } else machine.world } := by
        refine ⟨?_, rfl, rfl, rfl, rfl, rfl, moves_refl _⟩
        dsimp only
        split <;> rfl
      exact cleared.trans (shift_submit bridge isTask id)
  · exact ⟨rfl, rfl, rfl, rfl, rfl, rfl, moves_refl _⟩

theorem shift_pick (machine : Machine) : Shift machine (pick machine) := by
  unfold pick
  split
  · exact ⟨rfl, rfl, rfl, rfl, rfl, rfl, moves_refl _⟩
  · split
    · next isTask => exact ⟨rfl, rfl, rfl, rfl, rfl, rfl, moves_setPhase isTask id id⟩
    · exact ⟨rfl, rfl, rfl, rfl, rfl, rfl, moves_refl _⟩

/-- A request is rejected at once, or comes in and waits. -/
theorem request_cases (bridge : Bridge) (machine : Machine) (op : Op) :
    request bridge machine op =
        { machine with next := machine.next + 1, rejected := machine.next :: machine.rejected } ∨
      machine.world.closed = false ∧ ∃ lock,
        Shift { machine with
          next := machine.next + 1
          tasks := Function.update machine.tasks machine.next (some ⟨op, lock, .waiting⟩) }
          (request bridge machine op) := by
  unfold request
  dsimp only
  split
  · exact .inl rfl
  · next notClosed =>
      split
      · exact .inl rfl
      · next lock _ =>
          refine .inr ⟨by simpa using notClosed, lock, ?_⟩
          cases lock with
          | none =>
              have isTask : Function.update machine.tasks machine.next (some ⟨op, Lock.none, .waiting⟩) machine.next =
                  some ⟨op, Lock.none, .waiting⟩ := by simp
              exact shift_submit bridge isTask id
          | shared => exact shift_pumpLock _ _
          | exclusive => exact shift_pumpLock _ _

theorem moves_forget (machine : Machine) : Moves machine.tasks (forget machine).tasks := by
  intro n
  cases isTask : machine.tasks n with
  | none => exact .inl (by simp [forget, isTask])
  | some task =>
      obtain ⟨op, lock, phase⟩ := task
      cases phase with
      | queued => exact .inr ⟨op, lock, .queued, .refused, rfl, by simp [forget, isTask], id, id⟩
      | _ => exact .inl (by simp [forget, isTask])

end Shifts

/-! What holds after every step that keeps to the condition. -/
section Invariant

variable {machine : Machine} {duties : Nat → Duty}

/-- Which operations there are and how they stand. -/
structure Book (machine : Machine) : Prop where
  known : ∀ n task, machine.tasks n = some task → n < machine.next
  begun : ∀ n task, machine.tasks n = some task → task.phase.begun → n ∈ machine.begun
  left : ∀ n < machine.next, machine.tasks n = none → n ∈ machine.begun ∨ n ∈ machine.rejected
  /-- After `close()` every operation in flight has begun before or is rejected. -/
  late : ∀ early, machine.atClose = some early → (∀ n ∈ machine.begun, n ∈ early) ∧
    ∀ n task, machine.tasks n = some task → task.phase.ended
  closed : machine.world.closed = machine.atClose.isSome
  /-- `closeAll` has nothing to close before. -/
  closing : machine.atClose = none → machine.closing = []

structure Inv (machine : Machine) (duties : Nat → Duty) : Prop where
  book : Book machine
  accounts : Accounts (view machine.world) machine.closing duties
  owes : ∀ n op lock code, machine.tasks n = some ⟨op, lock, .running code⟩ →
    Owes (ledger (opens op) (stays op)) (fun _ => Duty.clear) (fun _ => Duty.clear) code (duties n)
  still : ∀ n, (∀ task, machine.tasks n = some task → ¬ task.phase.begun) → (duties n).clear

theorem Moves.begun {before after : Nat → Option Task} (moves : Moves before after) {n : Nat} {task : Task}
    (isTask : after n = some task) (begun : task.phase.begun) : before n = some task := by
  rcases moves n with same | ⟨op, lock, old, new, -, isNew, -, notBegun⟩
  · exact same ▸ isTask
  · rw [isNew] at isTask
    cases isTask
    exact (notBegun begun).elim

theorem Moves.known {before after : Nat → Option Task} (moves : Moves before after) {n : Nat} {task : Task}
    (isTask : after n = some task) : ∃ old, before n = some old ∧ (old.phase.ended → task.phase.ended) := by
  rcases moves n with same | ⟨op, lock, old, new, isOld, -, notEnded, -⟩
  · exact ⟨task, same ▸ isTask, id⟩
  · exact ⟨_, isOld, fun ended => (notEnded ended).elim⟩

theorem Moves.none {before after : Nat → Option Task} (moves : Moves before after) {n : Nat}
    (isNone : after n = none) : before n = none := by
  rcases moves n with same | ⟨op, lock, old, new, -, isNew, -, -⟩
  · exact same ▸ isNone
  · rw [isNew] at isNone
    cases isNone

theorem Moves.still {before after : Nat → Option Task} (moves : Moves before after) {n : Nat}
    (quiet : ∀ task, after n = some task → ¬ task.phase.begun) :
    ∀ task, before n = some task → ¬ task.phase.begun := by
  intro task isTask begun
  rcases moves n with same | ⟨op, lock, old, new, isOld, -, notEnded, -⟩
  · exact quiet task (same.trans isTask) begun
  · rw [isOld] at isTask
    cases isTask
    exact notEnded (ended_of_begun begun)

theorem Book.shift {after : Machine} (book : Book machine) (shift : Shift machine after) : Book after where
  known := by
    intro n task isTask
    obtain ⟨old, isOld, -⟩ := shift.tasks.known isTask
    exact shift.next ▸ book.known n old isOld
  begun := fun n task isTask begun => shift.begun ▸ book.begun n task (shift.tasks.begun isTask begun) begun
  left := by
    intro n bound isNone
    rw [shift.begun, shift.rejected]
    exact book.left n (shift.next ▸ bound) (shift.tasks.none isNone)
  late := by
    intro early isEarly
    obtain ⟨begun, ended⟩ := book.late early (shift.atClose ▸ isEarly)
    refine ⟨shift.begun ▸ begun, fun n task isTask => ?_⟩
    obtain ⟨old, isOld, keeps⟩ := shift.tasks.known isTask
    exact keeps (ended n old isOld)
  closed := by
    have same : after.world.closed = machine.world.closed := congrArg Table.closed shift.view
    rw [same, shift.atClose]
    exact book.closed
  closing := fun notYet => shift.closing.trans (book.closing (shift.atClose ▸ notYet))

theorem Inv.shift {after : Machine} (inv : Inv machine duties) (shift : Shift machine after) : Inv after duties where
  book := inv.book.shift shift
  accounts := by
    rw [shift.view, shift.closing]
    exact inv.accounts
  owes := fun n op lock code isTask => inv.owes n op lock code (shift.tasks.begun isTask trivial)
  still := fun n quiet => inv.still n (shift.tasks.still quiet)

theorem Book.notYet (book : Book machine) (notClosed : machine.world.closed = false) : machine.atClose = none := by
  have isNone := book.closed.symm.trans notClosed
  simpa using isNone

theorem inv_start (world : World) (noFiles : world.files = []) (noEntries : world.entries = [])
    (noFds : world.fds = []) (notClosed : world.closed = false) :
    Inv (Machine.fresh world) fun _ => Duty.none where
  book := by
    refine ⟨?_, ?_, ?_, ?_, notClosed, fun _ => rfl⟩
    · intro n task isTask
      cases isTask
    · intro n task isTask
      cases isTask
    · exact fun n bound => absurd bound (Nat.not_lt_zero n)
    · intro early isEarly
      cases isEarly
  accounts := accounts_start world noFiles noEntries noFds
  owes := by
    intro n op lock code isTask
    cases isTask
  still := fun _ _ => ⟨rfl, rfl, rfl⟩

/-- An operation comes in and waits. -/
theorem Inv.entered (inv : Inv machine duties) (notClosed : machine.world.closed = false) (op : Op) (lock : Lock) :
    Inv { machine with
      next := machine.next + 1
      tasks := Function.update machine.tasks machine.next (some ⟨op, lock, .waiting⟩) } duties := by
  have notYet := inv.book.notYet notClosed
  have others {n : Nat} {task : Task} (isTask : Function.update machine.tasks machine.next
      (some ⟨op, lock, .waiting⟩) n = some task) : (n = machine.next ∧ task = ⟨op, lock, .waiting⟩) ∨
      machine.tasks n = some task := by
    by_cases same : n = machine.next
    · subst same
      exact .inl ⟨rfl, by simpa using isTask.symm⟩
    · exact .inr (by simpa [same] using isTask)
  constructor
  · constructor
    · intro n task isTask
      rcases others isTask with ⟨isNew, -⟩ | isOld
      · exact isNew ▸ Nat.lt_succ_self _
      · exact Nat.lt_succ_of_lt (inv.book.known n task isOld)
    · intro n task isTask begun
      rcases others isTask with ⟨-, rfl⟩ | isOld
      · exact begun.elim
      · exact inv.book.begun n task isOld begun
    · intro n bound isNone
      by_cases same : n = machine.next
      · simp [same] at isNone
      · exact inv.book.left n (by dsimp only at bound; omega) (by simpa [same] using isNone)
    · intro early isEarly
      rw [notYet] at isEarly
      cases isEarly
    · exact inv.book.closed
    · exact inv.book.closing
  · exact inv.accounts
  · intro n op' lock' code isTask
    rcases others isTask with ⟨-, differs⟩ | isOld
    · cases differs
    · exact inv.owes n op' lock' code isOld
  · intro n quiet
    apply inv.still n
    intro task isTask
    by_cases same : n = machine.next
    · exact absurd (inv.book.known n task isTask) (same ▸ lt_irrefl _)
    · exact quiet task (by simpa [same] using isTask)

theorem Inv.refusedAtOnce (inv : Inv machine duties) :
    Inv { machine with next := machine.next + 1, rejected := machine.next :: machine.rejected } duties := by
  constructor
  · constructor
    · exact fun n task isTask => Nat.lt_succ_of_lt (inv.book.known n task isTask)
    · exact inv.book.begun
    · intro n bound isNone
      by_cases same : n = machine.next
      · exact .inr (same ▸ List.mem_cons_self)
      · have bound : n < machine.next := by
          dsimp only at bound
          omega
        exact (inv.book.left n bound isNone).imp_right (List.mem_cons_of_mem _)
    · exact inv.book.late
    · exact inv.book.closed
    · exact inv.book.closing
  · exact inv.accounts
  · exact inv.owes
  · exact inv.still

theorem inv_request (bridge : Bridge) (op : Op) (inv : Inv machine duties) :
    Inv (request bridge machine op) duties := by
  rcases request_cases bridge machine op with rejected | ⟨notClosed, lock, shift⟩
  · rw [rejected]
    exact inv.refusedAtOnce
  · exact (inv.entered notClosed op lock).shift shift

/-- An operation runs on, with what it then has in hand. -/
theorem Inv.runs {n : Nat} {op : Op} {lock : Lock} {old : Phase} {code : Code Value} {duty : Duty} {world : World}
    {begun : List Nat} (inv : Inv machine duties) (isTask : machine.tasks n = some ⟨op, lock, old⟩)
    (accounts : Accounts (view world) machine.closing (Function.update duties n duty))
    (closed : world.closed = machine.world.closed)
    (owes : Owes (ledger (opens op) (stays op)) (fun _ => Duty.clear) (fun _ => Duty.clear) code duty)
    (more : ∀ m, m ∈ machine.begun → m ∈ begun) (own : n ∈ begun)
    (early : ∀ early, machine.atClose = some early → ∀ m ∈ begun, m ∈ early) :
    Inv { machine with world := world, tasks := setPhase machine.tasks n (.running code), begun := begun }
      (Function.update duties n duty) := by
  have others {m : Nat} (differs : m ≠ n) : setPhase machine.tasks n (.running code) m = machine.tasks m := by
    simp [setPhase, differs]
  have isRunning {task : Task} : setPhase machine.tasks n (.running code) n = some task →
      task = ⟨op, lock, .running code⟩ := by
    intro isTask'
    rw [setPhase, Function.update_self, isTask] at isTask'
    exact (Option.some_inj.mp isTask').symm
  refine ⟨⟨?_, ?_, ?_, ?_, closed.trans inv.book.closed, inv.book.closing⟩, accounts, ?_, ?_⟩
  · intro m task isTask'
    by_cases same : m = n
    · exact same ▸ inv.book.known n _ isTask
    · exact inv.book.known m task ((others same).symm.trans isTask')
  · intro m task isTask' begun
    by_cases same : m = n
    · exact same ▸ own
    · exact more m (inv.book.begun m task ((others same).symm.trans isTask') begun)
  · intro m bound isNone
    by_cases same : m = n
    · exact .inl (same ▸ own)
    · exact (inv.book.left m bound ((others same).symm.trans isNone)).imp_left (more m)
  · intro atClose isEarly
    refine ⟨early atClose isEarly, fun m task isTask' => ?_⟩
    by_cases same : m = n
    · subst same
      rw [isRunning isTask']
      trivial
    · exact (inv.book.late atClose isEarly).2 m task ((others same).symm.trans isTask')
  · intro m op' lock' code' isTask'
    by_cases same : m = n
    · subst same
      cases isRunning isTask'
      simpa using owes
    · simpa [same] using inv.owes m op' lock' code' ((others same).symm.trans isTask')
  · intro m quiet
    by_cases same : m = n
    · subst same
      have begun : (⟨op, lock, .running code⟩ : Task).phase.begun := trivial
      exact absurd begun (quiet _ (by simp [setPhase, isTask]))
    · simpa [same] using inv.still m fun task isTask' => quiet task ((others same).trans isTask')

/-- An operation begins, with nothing in hand. -/
theorem inv_begin (bridge : Bridge) (n : Nat) (inv : Inv machine duties) :
    ∃ duties, Inv (begin bridge machine n) duties := by
  unfold begin
  split
  · next op lock isTask =>
      have notYet : machine.atClose = none := by
        rw [Option.eq_none_iff_forall_not_mem]
        exact fun early isEarly => (inv.book.late early isEarly).2 n _ isTask
      have clear : (duties n).clear := by
        apply inv.still n
        intro task isTask'
        rw [isTask] at isTask'
        cases isTask'
        exact id
      have accounts : Accounts (view machine.world) machine.closing (Function.update duties n Duty.none) := by
        refine inv.accounts.edit clear.1.symm clear.2.1.symm (fun fd _ member => ?_) fun fd handle known => ?_
        · rwa [clear.2.2] at member
        · cases known
      refine ⟨_, inv.runs isTask accounts rfl (owes_runOp bridge.broker op)
        (fun _ => List.mem_cons_of_mem n) List.mem_cons_self ?_⟩
      intro early isEarly
      rw [notYet] at isEarly
      cases isEarly
  · exact ⟨duties, inv⟩

theorem stat_seen {world : World} {handle : Nat} {reply : Reply} (answered : (world.onFile handle .stat).1 = .ok reply) :
    ∃ location node inode links, reply = .seen location node inode links := by
  unfold World.onFile at answered
  split at answered
  · cases answered
  · next file _ =>
      have seen : ∀ reply, (world.outcome (.descriptor file .stat)).2 = .ok reply →
          ∃ location node inode links, reply = .seen location node inode links := by
        intro reply isReply
        cases faulty : world.chance.fault with
        | none =>
            simp only [World.outcome, exec, faulty, descriptor] at isReply
            cases isReply
            exact ⟨_, _, _, _, rfl⟩
        | some code =>
            simp only [World.outcome, exec, faulty] at isReply
            cases isReply
      dsimp only at answered
      split at answered
      · next isRead =>
          obtain ⟨_, _, _, _, differs⟩ := seen _ isRead
          cases differs
      · next isWrote =>
          obtain ⟨_, _, _, _, differs⟩ := seen _ isWrote
          cases differs
      · exact seen reply answered

/-- The answers an operation gets are those its duty reckons with. -/
theorem answers_come {world : World} {closing : List Nat} {n : Nat} {op : Op} {action : Act}
    (accounts : Accounts (view world) closing duties) (may : mayAct world op action = true) :
    comesTo (opens op) (duties n) action (handle action world).1 := by
  cases action with
  | onFile handle act =>
      intro isOpens own
      have notTabled : tabled world handle = false := by
        rw [tabled, List.any_eq_false]
        intro entry member
        have differs := (accounts.fresh n handle own).2 _ (List.mem_map_of_mem member)
        simpa using differs
      have answered : answers world handle act = true := by simpa [mayAct, isOpens, notTabled] using may
      unfold answers at answered
      split at answered
      · next reply isReply =>
          refine ⟨reply, isReply, ?_⟩
          rintro rfl
          exact stat_seen isReply
      · cases answered
  | entryOf fd =>
      intro handle known
      have found := accounts.file n fd handle known
      rw [owners_lookup, Option.map_eq_some_iff] at found
      exact found
  | fdAdd entry =>
      cases known : (duties n).file world.nextFd with
      | none => exact known
      | some handle =>
          have found := accounts.file n _ handle known
          rw [show world.nextFd = (view world).nextFd from rfl, accounts.unused] at found
          cases found
  | _ => trivial

theorem handle_closed (action : Act) (world : World) : (handle action world).2.closed = world.closed := by
  cases action with
  | openFile path flags mode =>
      rcases view_open world path flags mode with ⟨-, isView⟩ | ⟨-, isView⟩
      · exact congrArg Table.closed isView
      · exact congrArg Table.closed isView
  | closeFile => rfl
  | fdAdd => rfl
  | fdDrop => rfl
  | onFile handle act => exact congrArg Table.closed (view_onFile world handle act)
  | reserve bytes entries =>
      simp only [handle]
      split <;> rfl
  | report rule target =>
      simp only [handle, World.report]
      split <;> rfl
  | _ => rfl

theorem inv_act (n : Nat) (inv : Inv machine duties) (meets : meets machine (.act n) = true) :
    ∃ duties, Inv (act machine n) duties := by
  unfold act
  split
  · next op lock action next isTask =>
      have may : mayAct machine.world op action = true := by simpa [BrokerClosing.meets, isTask] using meets
      obtain ⟨allowed, rest⟩ := inv.owes n op lock _ isTask
      have began := inv.book.begun n _ isTask trivial
      have accounts : Accounts (view (handle action machine.world).2) machine.closing (Function.update duties n
          (afterAct (stays op) (duties n) action (handle action machine.world).1)) := by
        apply accounts_act inv.accounts allowed
        rintro entry rfl isOpen
        simpa [mayAct, isOpen] using may
      refine ⟨_, inv.runs isTask accounts (handle_closed action machine.world)
        (rest _ (answers_come inv.accounts may)) (fun _ => id) began ?_⟩
      exact fun early isEarly => (inv.book.late early isEarly).1
  · exact ⟨duties, inv⟩

/-- An operation that has nothing in hand leaves. -/
theorem Inv.leaves {n : Nat} {rejected : List Nat} (inv : Inv machine duties) (clear : (duties n).clear)
    (more : ∀ m, m ∈ machine.rejected → m ∈ rejected) (own : n ∈ machine.begun ∨ n ∈ rejected) :
    Inv { machine with tasks := Function.update machine.tasks n none, rejected := rejected } duties := by
  have old {m : Nat} {task : Task} (isTask : Function.update machine.tasks n none m = some task) :
      machine.tasks m = some task := by
    by_cases same : m = n
    · simp [same] at isTask
    · simpa [same] using isTask
  refine ⟨⟨?_, ?_, ?_, ?_, inv.book.closed, inv.book.closing⟩, inv.accounts, ?_, ?_⟩
  · exact fun m task isTask => inv.book.known m task (old isTask)
  · exact fun m task isTask begun => inv.book.begun m task (old isTask) begun
  · intro m bound isNone
    by_cases same : m = n
    · exact same ▸ own
    · exact (inv.book.left m bound (by simpa [same] using isNone)).imp_right (more m)
  · intro early isEarly
    obtain ⟨begun, ended⟩ := inv.book.late early isEarly
    exact ⟨begun, fun m task isTask => ended m task (old isTask)⟩
  · exact fun m op lock code isTask => inv.owes m op lock code (old isTask)
  · intro m quiet
    by_cases same : m = n
    · exact same ▸ clear
    · exact inv.still m fun task isTask => quiet task (by simpa [same] using isTask)

theorem inv_finish (n : Nat) (inv : Inv machine duties) : Inv (finish machine n) duties := by
  unfold finish
  split
  · next op lock isTask =>
      have clear : (duties n).clear := by
        apply inv.still n
        intro task isTask'
        rw [isTask] at isTask'
        cases isTask'
        exact id
      exact (inv.leaves clear (fun _ => List.mem_cons_of_mem n) (.inr List.mem_cons_self)).shift (shift_release _ _)
  · next op lock value isTask =>
      have clear : (duties n).clear := inv.owes n op lock _ isTask
      exact (inv.leaves clear (fun _ => id) (.inl (inv.book.begun n _ isTask trivial))).shift (shift_release _ _)
  · next op lock error isTask =>
      have clear : (duties n).clear := inv.owes n op lock _ isTask
      exact (inv.leaves clear (fun _ => id) (.inl (inv.book.begun n _ isTask trivial))).shift (shift_release _ _)
  · exact inv

/-- With nobody between the queues, `close()` leaves operations that run and operations that are rejected. -/
theorem forget_ends {n : Nat} {task : Task} (book : Book machine) (isPlaced : placed machine = true)
    (isTask : (forget machine).tasks n = some task) : task.phase.ended := by
  simp only [forget, Option.map_eq_some_iff] at isTask
  obtain ⟨old, isOld, isNew⟩ := isTask
  have fits := List.all_eq_true.mp isPlaced n (List.mem_range.mpr (book.known n old isOld))
  obtain ⟨op, lock, phase⟩ := old
  rw [isOld] at fits
  subst isNew
  cases phase with
  | waiting => cases fits
  | granted => cases fits
  | picked => cases fits
  | queued => trivial
  | running code => trivial
  | refused => trivial

theorem inv_close (inv : Inv machine duties) (meets : meets machine .close = true) : Inv (close machine) duties := by
  unfold close
  split
  · exact inv
  · next notClosed =>
      have isPlaced : placed machine = true := by simpa [BrokerClosing.meets, notClosed] using meets
      have notYet := inv.book.notYet (by simpa using notClosed)
      have moves := moves_forget machine
      refine ⟨⟨?_, ?_, ?_, ?_, rfl, ?_⟩, ?_, ?_, ?_⟩
      · intro n task isTask
        obtain ⟨old, isOld, -⟩ := moves.known isTask
        exact inv.book.known n old isOld
      · exact fun n task isTask begun => inv.book.begun n task (moves.begun isTask begun) begun
      · exact fun n bound isNone => inv.book.left n bound (moves.none isNone)
      · rintro early isEarly
        cases isEarly
        exact ⟨fun _ => id, fun n task isTask => forget_ends inv.book isPlaced isTask⟩
      · intro isNone
        cases isNone
      · refine ⟨?_, ?_, inv.accounts.file, inv.accounts.keys, inv.accounts.fresh, inv.accounts.apart⟩
        · intro handle member
          rcases inv.accounts.files handle member with isHeld | ⟨fd, there, isFile⟩ | none
          · exact .inl isHeld
          · refine .inr (.inr (List.mem_filterMap.mpr ⟨fd, there, ?_⟩))
            rw [← owners_lookup]
            exact isFile
          · simp [inv.book.closing notYet] at none
        · exact fun _ fd member => absurd member List.not_mem_nil
      · exact fun n op lock code isTask => inv.owes n op lock code (moves.begun isTask trivial)
      · exact fun n quiet => inv.still n (moves.still quiet)

theorem inv_closeFile (bridge : Bridge) (handle : Nat) (inv : Inv machine duties) :
    Inv (step bridge machine (.closeFile handle)) duties := by
  simp only [step]
  split
  · next there =>
      have isView : view (BrokerWorld.handle (.closeFile handle) machine.world).2 =
          { view machine.world with files := without (view machine.world).files handle } := by
        simp [BrokerWorld.handle, view, without, List.filter_map, Function.comp_def]
      refine ⟨⟨inv.book.known, inv.book.begun, inv.book.left, inv.book.late, inv.book.closed, ?_⟩, ?_, inv.owes,
        inv.still⟩
      · intro notYet
        simp [inv.book.closing notYet]
      · dsimp only
        rw [isView]
        refine ⟨?_, inv.accounts.fds, inv.accounts.file, inv.accounts.keys, inv.accounts.fresh, inv.accounts.apart⟩
        intro other member
        obtain ⟨open_, differs⟩ := mem_without.mp member
        rcases inv.accounts.files other open_ with isHeld | inTable | closing
        · exact .inl isHeld
        · exact .inr (.inl inTable)
        · exact .inr (.inr (mem_without.mpr ⟨closing, differs⟩))
  · exact inv

theorem step_inv (bridge : Bridge) (event : Event) (inv : Inv machine duties)
    (meets : meets machine event = true) : ∃ duties, Inv (step bridge machine event) duties := by
  cases event with
  | request op => exact ⟨duties, inv_request bridge op inv⟩
  | resume n => exact ⟨duties, inv.shift (shift_resume bridge machine n)⟩
  | pick => exact ⟨duties, inv.shift (shift_pick machine)⟩
  | «begin» n => exact inv_begin bridge n inv
  | act n => exact inv_act n inv meets
  | finish n => exact ⟨duties, inv_finish n inv⟩
  | close => exact ⟨duties, inv_close inv meets⟩
  | closeFile handle => exact ⟨duties, inv_closeFile bridge handle inv⟩

theorem run_inv (bridge : Bridge) (events : List Event) (inv : ∃ duties, Inv machine duties)
    (meets : meetsAll bridge machine events = true) : ∃ duties, Inv (run bridge machine events) duties := by
  induction events generalizing machine with
  | nil => exact inv
  | cons event rest ih =>
      obtain ⟨duties, inv⟩ := inv
      rw [meetsAll, Bool.and_eq_true] at meets
      exact ih (step_inv bridge event inv meets.1) meets.2

theorem Inv.settled (inv : Inv machine duties) : Settled machine where
  empty := by
    intro closed noClosing idle
    have clear (n : Nat) : (duties n).clear := by
      apply inv.still n
      intro task isTask
      rw [idle n] at isTask
      cases isTask
    have noFds : machine.world.fds = [] := by
      rw [List.eq_nil_iff_forall_not_mem]
      intro fd member
      obtain ⟨n, isTabled⟩ := inv.accounts.fds closed fd member
      simp [(clear n).2.2] at isTabled
    refine ⟨noFds, ?_⟩
    rw [List.eq_nil_iff_forall_not_mem]
    intro entry member
    rcases inv.accounts.files entry.1 (List.mem_map_of_mem member) with ⟨n, isHeld⟩ | ⟨fd, there, -⟩ | closing
    · simp [(clear n).1, (clear n).2.1] at isHeld
    · simp [view, noFds] at there
    · simp [noClosing] at closing
  late := fun early isEarly => (inv.book.late early isEarly).1
  told := by
    intro early isEarly n bound notEarly isNone
    refine (inv.book.left n bound isNone).resolve_left fun begun => notEarly ?_
    exact (inv.book.late early isEarly).1 n begun

end Invariant

/-! The end of a worker. -/
section Ends

variable (host : Host) (quota : DiskQuota.Quota Int) (chances : Nat → Chance)

/-- A worker's bridge and broker as they are made, on any host. -/
def started : Machine := Machine.fresh (World.fresh host quota chances)

/-- Nothing lingers after `close()`, whatever the operations are doing then, as long as no operation is between the
two queues, no `open` is still to enter the table and files that were just opened can be looked at and truncated. -/
theorem nothing_lingers (bridge : Bridge) (events : List Event)
    (meets : meetsAll bridge (started host quota chances) events = true) :
    Settled (run bridge (started host quota chances) events) := by
  have start : ∃ duties, Inv (started host quota chances) duties :=
    ⟨_, inv_start (World.fresh host quota chances) rfl rfl rfl rfl⟩
  obtain ⟨duties, inv⟩ := run_inv bridge events start meets
  exact inv.settled

def fileNames : HostTree.Names := smallNames ++ [(["srv", "data", "f"], ⟨5, .file⟩)]

def fileBridge : Bridge := ⟨smallBroker smallConfig fileNames, 4096⟩

def fileHost : Host := (smallWorld fileNames).host

def fileQuota : DiskQuota.Quota Int := (smallWorld fileNames).quota

def fileChances : Nat → Chance := (smallWorld fileNames).chances

def fileStarted : Machine := started fileHost fileQuota fileChances

/-- An operation that gets the lock and runs for a number of actions. -/
def begins (n : Nat) (op : Op) (actions : Nat) : List Event :=
  [.request op, .resume n, .pick, .begin n] ++ List.replicate actions (.act n)

/-- A file is opened; at `close()` it is in the table and one operation is in the scheduler's queue. -/
def tidyRun : List Event :=
  begins 0 (.open (absolute ["data", "f"]) (.text "r") 0o666) 12 ++
    [.finish 0, .request (.stat (absolute ["data"])), .resume 1, .close, .finish 1, .closeFile 0]

theorem tidy_run_settles :
    meetsAll fileBridge fileStarted tidyRun = true ∧ (run fileBridge fileStarted tidyRun).rejected = [1] ∧
      Settled (run fileBridge fileStarted tidyRun) := by
  refine ⟨by decide +kernel, by decide +kernel, ?_⟩
  exact nothing_lingers fileHost fileQuota fileChances fileBridge tidyRun (by decide +kernel)

/-- `mkdir` is in the scheduler's queue, `stat` waits for its lock. -/
def waiterRun : List Event :=
  [.request (.mkdir (absolute ["data", "a"]) false 0o777), .resume 0, .request (.stat (absolute ["data"])), .close,
    .finish 0, .resume 1, .pick, .begin 1]

/-- `close()` comes while the host opens a file. -/
def openerRun : List Event :=
  begins 0 (.open (absolute ["data", "f"]) (.text "r") 0o666) 8 ++ [.close] ++ List.replicate 4 (.act 0) ++ [.finish 0]

/-- A file is opened for reading and to be truncated, which the host refuses. -/
def truncaterRun : List Event :=
  begins 0 (.open (absolute ["data", "f"]) (.number { trunc := true }) 0o666) 12 ++ [.finish 0, .close]

/-- The operation that waited for the lock begins after `close()`, and either `open` leaves its file open. -/
theorem work_lingers_after_close :
    ¬ Settled (run fileBridge fileStarted waiterRun) ∧ ¬ Settled (run fileBridge fileStarted openerRun) ∧
      ¬ Settled (run fileBridge fileStarted truncaterRun) := by
  refine ⟨fun settled => ?_, fun settled => ?_, fun settled => ?_⟩
  · have late : 1 ∈ ([] : List Nat) :=
      settled.late [] (by decide +kernel) 1 (by decide +kernel)
    cases late
  · have idle : (run fileBridge fileStarted openerRun).idle := by
      rintro (_ | n) <;> rfl
    have empty := settled.empty (by decide +kernel) (by decide +kernel) idle
    exact absurd empty.1 (by decide +kernel)
  · have idle : (run fileBridge fileStarted truncaterRun).idle := by
      rintro (_ | n) <;> rfl
    have empty := settled.empty (by decide +kernel) (by decide +kernel) idle
    have noFiles : (run fileBridge fileStarted truncaterRun).world.files.map Prod.fst = [] := by
      rw [empty.2]
      rfl
    exact absurd noFiles (by decide +kernel)

end Ends

end Countinghouse.BrokerClosing
