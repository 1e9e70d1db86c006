import Mathlib
import Countinghouse.PromiseChain

/-!
The workers of one module name: `ModuleLifecycle` with its lock, `ModuleManager`'s loads,
restarts, unloads and uninstalls of the name, and the supervisor's record of it. A step is
what the main thread does between two awaits, or an event of a worker; steps come in any
order. `Worker.terminate()` is taken to resolve only after the worker's exit event.
-/

namespace Countinghouse.ModuleLifecycle

open PromiseChain

/-- `BACKOFF_BASE_MS` and the other constants of the supervisor, and `IDLE_BOUND_MS`. -/
def backoffBaseMs : Nat := 1000
def backoffMaxMs : Nat := 60000
def suspendAfter : Nat := 3
def windowMs : Nat := 10 * 60 * 1000
def idleBoundMs : Nat := 35000

/-! The lock, the tracked entry and the workers. -/
section Life

/-- How far `settleAfterExit` is for a worker. -/
inductive Settling where
  | running
  | closing
  | idling (since : Nat)
  | settled (since : Nat)
  deriving DecidableEq

structure Worker where
  exited : Bool
  hasExited : Bool
  settling : Settling
  inFlight : Nat
  deriving DecidableEq

inductive Work where
  /-- `stillWanted` asks for a record of the supervisor; an operator's load has none. -/
  | spawn (wanted : Option Nat)
  | uninstall (request : Nat)
  deriving DecidableEq

/-- Where a job of the lock is. -/
inductive Stage where
  | waiting
  /-- `await live.terminate()` -/
  | terminating (worker : Nat)
  /-- `await this.lifecycle.settled(name)` -/
  | settling (worker : Option Nat)
  /-- `createForWorker`: /tmp is emptied, the data measured, the broker built. -/
  | walking
  /-- The registry entry, then the data. -/
  | removing
  | deleting
  | done
  deriving DecidableEq

def Stage.turn : Stage → Turn
  | .waiting => .waiting
  | .done => .done
  | _ => .running

/-- The sections that must be alone. -/
def Stage.critical : Stage → Bool
  | .walking | .removing | .deleting => true
  | _ => false

structure Life where
  now : Nat
  entry : Option Nat
  workers : Nat → Worker
  /-- Workers started so far. -/
  started : Nat
  links : Links
  work : Nat → Work
  stage : Nat → Stage
  /-- Uninstalls asked for so far, those that found the name in use, and those that began to delete. -/
  requests : Nat
  found : List Nat
  deletes : List Nat

def Life.fresh : Life where
  now := 0
  entry := none
  workers := fun _ => ⟨false, false, .running, 0⟩
  started := 0
  links := Links.empty
  work := fun _ => .spawn none
  stage := fun _ => .waiting
  requests := 0
  found := []
  deletes := []

def Life.turn (life : Life) (n : Nat) : Turn := (life.stage n).turn

def Life.withStage (life : Life) (n : Nat) (stage : Stage) : Life :=
  { life with stage := Function.update life.stage n stage }

def Life.withWorker (life : Life) (w : Nat) (worker : Worker) : Life :=
  { life with workers := Function.update life.workers w worker }

def Life.run (life : Life) (work : Work) : Life :=
  { life with links := life.links.append, work := Function.update life.work life.links.next work }

/-- `if (this.chains.get(name) === tail) this.chains.delete(name)` -/
def Life.dropChain (life : Life) : Life :=
  match life.links.tail with
  | some last => if life.turn last = .done then { life with links := life.links.forget } else life
  | none => life

def Life.live (life : Life) : Option Nat :=
  match life.entry with
  | some w => if (life.workers w).hasExited then none else some w
  | none => none

/-- `e.settled` has resolved; without an entry it is `Promise.resolve()`. -/
def Life.hasSettled (life : Life) : Option Nat → Bool
  | none => true
  | some w =>
      match (life.workers w).settling with
      | .settled _ => true
      | _ => false

/-- The section of a spawn up to its first `await`; the flag tells that it stood down. -/
def Life.enterSpawn (life : Life) (n : Nat) (wanted : Option Nat) : Life × Bool :=
  match life.live with
  | some w =>
      if wanted.isSome then (life.withStage n .done, true) else (life.withStage n (.terminating w), false)
  | none => (life.withStage n (.settling life.entry), false)

/-- The section of an uninstall up to its first `await`. -/
def Life.enterUninstall (life : Life) (n request : Nat) (busy : Bool) : Life :=
  if busy then { life.withStage n .done with found := request :: life.found }
  else life.withStage n (.settling life.entry)

/-- `live.terminate()` has resolved. -/
def Life.terminated (life : Life) (n : Nat) : Life :=
  match life.stage n with
  | .terminating w => if (life.workers w).exited then life.withStage n (.settling life.entry) else life
  | _ => life

/-- The wait for the previous broker is over. -/
def Life.proceed (life : Life) (n : Nat) : Life :=
  match life.stage n with
  | .settling target =>
      if life.hasSettled target then
        match life.work n with
        | .spawn _ => life.withStage n .walking
        | .uninstall request => { life.withStage n .removing with deletes := request :: life.deletes }
      else life
  | _ => life

/-- `startWorker` and `ModuleLifecycle.track`; the section ends. -/
def Life.start (life : Life) (n : Nat) : Life :=
  { life.withStage n .done with
    workers := Function.update life.workers life.started ⟨false, false, .running, 0⟩
    entry := some life.started
    started := life.started + 1 }

def Life.alive (life : Life) (w : Nat) : Bool := w < life.started && !(life.workers w).exited

inductive WorkerEvent where
  | exit | noteExit | closeBridge | bridgeClosed | settle | dropEntry | opBegins | opEnds
  deriving DecidableEq

def Life.worker (life : Life) (w : Nat) (event : WorkerEvent) : Life :=
  let worker := life.workers w
  match event, worker.settling with
  | .exit, _ => life.withWorker w { worker with exited := true }
  | .noteExit, _ => if worker.exited then life.withWorker w { worker with hasExited := true } else life
  | .closeBridge, .running => if worker.exited then life.withWorker w { worker with settling := .closing } else life
  | .bridgeClosed, .closing => life.withWorker w { worker with settling := .idling life.now }
  -- `Promise.race([broker.idle(), late])`
  | .settle, .idling since =>
      if worker.inFlight = 0 || since + idleBoundMs ≤ life.now then
        life.withWorker w { worker with settling := .settled since }
      else life
  | .dropEntry, .settled _ => if life.entry = some w then { life with entry := none } else life
  -- the ports are closed with the bridge
  | .opBegins, .running => life.withWorker w { worker with inFlight := worker.inFlight + 1 }
  | .opEnds, _ => life.withWorker w { worker with inFlight := worker.inFlight - 1 }
  | _, _ => life

end Life

/-! What the module manager and the supervisor know of the name. -/
section Manager

inductive RunState where
  | running | restarting | suspended
  deriving DecidableEq

/-- The supervisor's record; `number` is its identity, which `isCurrent` compares. -/
structure Record where
  number : Nat
  state : RunState
  exits : List Nat
  /-- When the restart timer is due. -/
  timer : Option Nat
  deriving DecidableEq

inductive Load where
  | loading | loaded | failed
  deriving DecidableEq

/-- What follows an operator's unload. -/
inductive After where
  | nothing | spawn | load
  deriving DecidableEq

structure Unload where
  worker : Nat
  after : After
  /-- `finish` has run: on the worker's answer or on the timer. -/
  finished : Bool
  deriving DecidableEq

structure Manager where
  supervised : Bool
  modules : Option Nat
  record : Option Record
  records : Nat
  load : Nat → Load
  /-- The record a restart was started for. -/
  wanted : Nat → Option Nat
  reported : Nat → Bool
  unloading : Nat → Bool
  unloads : List Unload

def Manager.fresh (supervised : Bool) : Manager where
  supervised := supervised
  modules := none
  record := none
  records := 0
  load := fun _ => .loading
  wanted := fun _ => none
  reported := fun _ => false
  unloading := fun _ => false
  unloads := []

def backoffFor (nthExit : Nat) : Nat := min (backoffBaseMs * 2 ^ (nthExit - 1)) backoffMaxMs

def Manager.recordFor (manager : Manager) : Record :=
  manager.record.getD ⟨manager.records, .running, [], none⟩

def Manager.withRecord (manager : Manager) (record : Record) : Manager :=
  { manager with
    record := some record
    records := if manager.record.isSome then manager.records else manager.records + 1 }

def Manager.track (manager : Manager) : Manager :=
  if manager.supervised then manager.withRecord { manager.recordFor with state := .running } else manager

def Manager.exited (manager : Manager) (now : Nat) : Manager :=
  if manager.supervised then
    let record := manager.recordFor
    let exits := (record.exits.filter fun at_ => now - at_ ≤ windowMs) ++ [now]
    manager.withRecord
      (if suspendAfter ≤ exits.length then { record with state := .suspended, exits := exits, timer := none }
      else { record with state := .restarting, exits := exits, timer := some (now + backoffFor exits.length) })
  else manager

def Manager.clear (manager : Manager) : Manager := { manager with record := none }

def Manager.suspend (manager : Manager) : Manager :=
  { manager with record := manager.record.map fun record => { record with state := .suspended, timer := none } }

def Manager.isCurrent (manager : Manager) (number : Nat) : Bool :=
  manager.record.any fun record => record.number == number

/-- The callback of a spawn that failed; only a supervised restart does something here. -/
def Manager.spawnFailed (manager : Manager) (now : Nat) (wanted : Option Nat) (refused : Bool) : Manager :=
  match wanted with
  | none => manager
  | some number =>
      if manager.isCurrent number then if refused then manager.suspend else manager.exited now
      else manager

def Manager.onUnexpectedExit (manager : Manager) (now w : Nat) : Manager :=
  if manager.reported w then manager
  else
    let reported := { manager with reported := Function.update manager.reported w true }
    match manager.load w with
    | .loading =>
        { reported with load := Function.update manager.load w .failed }.spawnFailed now (manager.wanted w) false
    | .failed => reported
    | .loaded =>
        if manager.modules = some w && !manager.unloading w then { reported with modules := none }.exited now
        else reported

/-- The answer to `sendLoadModuleMessage`, with `onModuleLoad`. -/
def Manager.loadAnswered (manager : Manager) (now w : Nat) (ok : Bool) : Manager :=
  match manager.load w with
  | .loading =>
      let failed := { manager with load := Function.update manager.load w .failed }
      if !ok then failed.spawnFailed now (manager.wanted w) false
      else if (manager.wanted w).any fun number => !manager.isCurrent number then failed
      else { manager with load := Function.update manager.load w .loaded, modules := some w }.track
  | _ => manager

def Manager.unloadModuleExternal (manager : Manager) (after : After) : Manager :=
  match manager.modules with
  | some w =>
      { manager.clear with
        unloading := Function.update manager.unloading w true
        unloads := manager.unloads ++ [⟨w, after, false⟩] }
  | none => manager.clear

end Manager

/-! Loads, restarts and uninstalls. -/
section Step

structure State where
  manager : Manager
  life : Life

def State.fresh (supervised : Bool) : State := ⟨Manager.fresh supervised, Life.fresh⟩

/-- The checks of `spawnModuleWorker` before the lock. -/
inductive Check where
  | passes | fails | refused
  deriving DecidableEq

/-- How a spawn's section ends: `createForWorker` fails, `startWorker` throws before or after the worker is tracked,
or the worker runs. -/
inductive Walk where
  | fails | refused | startThrows | trackedThrows | starts
  deriving DecidableEq

def State.spawnModuleWorker (state : State) (wanted : Option Nat) : Check → State
  | .passes => { state with life := state.life.run (.spawn wanted) }
  | .fails => { state with manager := state.manager.spawnFailed state.life.now wanted false }
  | .refused => { state with manager := state.manager.spawnFailed state.life.now wanted true }

def State.loadModuleByWorker (state : State) (check : Check) : State :=
  let cleared := state.manager.clear
  match cleared.modules with
  | none => { state with manager := cleared }.spawnModuleWorker none check
  | some _ => { state with manager := cleared.unloadModuleExternal .spawn }

def State.restartModule (state : State) (check : Check) : State :=
  match state.manager.modules, state.manager.record with
  | none, none => state
  | none, some _ => state.loadModuleByWorker check
  | some _, _ => { state with manager := state.manager.unloadModuleExternal .load }

/-- An operator's unload has been answered or has waited long enough: `unloadModule`. -/
def State.unloadAnswered (state : State) (i : Nat) : State :=
  match state.manager.unloads[i]? with
  | some unload =>
      if unload.finished then state
      else { state with manager := { state.manager with
        modules := none
        unloads := state.manager.unloads.set i { unload with finished := true } } }
  | none => state

/-- `m.worker.terminate().then(() => callback())` -/
def State.unloadEnds (state : State) (i : Nat) (check : Check) : State :=
  match state.manager.unloads[i]? with
  | some unload =>
      if unload.finished && (state.life.workers unload.worker).exited then
        let removed := { state with manager := { state.manager with unloads := state.manager.unloads.eraseIdx i } }
        match unload.after with
        | .nothing => removed
        | .spawn => removed.spawnModuleWorker none check
        | .load => removed.loadModuleByWorker check
      else state
  | none => state

def State.timerFires (state : State) (check : Check) : State :=
  match state.manager.record with
  | some record =>
      if record.timer.any fun due => due ≤ state.life.now then
        let fired := { state with manager := { state.manager with record := some { record with timer := none } } }
        if record.state = .restarting then fired.spawnModuleWorker (some record.number) check else fired
      else state
  | none => state

/-- `busy` of `uninstallModule` -/
def State.busy (state : State) : Bool :=
  (state.manager.supervised && state.manager.record.isSome) || state.manager.modules.isSome || state.life.live.isSome

def State.uninstallModule (state : State) : State :=
  let request := state.life.requests
  let asked := { state.life with requests := request + 1 }
  if state.busy then { state with life := { asked with found := request :: asked.found } }
  else { state with life := asked.run (.uninstall request) }

/-- The lock is given to a job. -/
def State.enter (state : State) (n : Nat) : State :=
  if state.life.links.ready state.life.turn n then
    match state.life.work n with
    | .spawn wanted =>
        let (entered, stoodDown) := state.life.enterSpawn n wanted
        ⟨if stoodDown then state.manager.spawnFailed state.life.now wanted false else state.manager, entered⟩
    | .uninstall request => { state with life := state.life.enterUninstall n request state.busy }
  else state

def State.walked (state : State) (n : Nat) (walk : Walk) : State :=
  match state.life.stage n, state.life.work n with
  | .walking, .spawn wanted =>
      let w := state.life.started
      let newer := { state.manager with
        load := Function.update state.manager.load w .loading
        wanted := Function.update state.manager.wanted w wanted
        reported := Function.update state.manager.reported w false
        unloading := Function.update state.manager.unloading w false }
      match walk with
      | .starts => ⟨newer, state.life.start n⟩
      | .trackedThrows => ⟨newer.spawnFailed state.life.now wanted false, state.life.start n⟩
      | .refused => ⟨state.manager.spawnFailed state.life.now wanted true, state.life.withStage n .done⟩
      | _ => ⟨state.manager.spawnFailed state.life.now wanted false, state.life.withStage n .done⟩
  | _, _ => state

def State.removed (state : State) (n : Nat) (ok : Bool) : State :=
  match state.life.stage n with
  | .removing => { state with life := state.life.withStage n (if ok then .deleting else .done) }
  | .deleting => { state with life := state.life.withStage n .done }
  | _ => state

inductive Event where
  | tick (ms : Nat)
  | load (check : Check)
  | restart (check : Check)
  | unload
  | unloadAnswered (i : Nat)
  | unloadEnds (i : Nat) (check : Check)
  | timerFires (check : Check)
  | uninstall
  | enter (n : Nat)
  | terminated (n : Nat)
  | proceed (n : Nat)
  | walked (n : Nat) (walk : Walk)
  | removed (n : Nat) (ok : Bool)
  | dropChain
  | crash (w : Nat)
  | loadAnswered (w : Nat) (ok : Bool)
  | worker (w : Nat) (event : WorkerEvent)
  deriving DecidableEq

def step (state : State) : Event → State
  | .tick ms => { state with life := { state.life with now := state.life.now + ms } }
  | .load check => state.loadModuleByWorker check
  | .restart check => state.restartModule check
  | .unload => { state with manager := state.manager.unloadModuleExternal .nothing }
  | .unloadAnswered i => state.unloadAnswered i
  | .unloadEnds i check => state.unloadEnds i check
  | .timerFires check => state.timerFires check
  | .uninstall => state.uninstallModule
  | .enter n => state.enter n
  | .terminated n => { state with life := state.life.terminated n }
  | .proceed n => { state with life := state.life.proceed n }
  | .walked n walk => state.walked n walk
  | .removed n ok => state.removed n ok
  | .dropChain => { state with life := state.life.dropChain }
  | .crash w =>
      if w < state.life.started then { state with manager := state.manager.onUnexpectedExit state.life.now w }
      else state
  | .loadAnswered w ok =>
      if w < state.life.started then { state with manager := state.manager.loadAnswered state.life.now w ok }
      else state
  | .worker w event =>
      if w < state.life.started then
        ⟨if event = .exit then state.manager.onUnexpectedExit state.life.now w else state.manager,
          state.life.worker w event⟩
      else state

def run (state : State) (events : List Event) : State := events.foldl step state

end Step

/-- What the lifecycle lock is for. -/
structure Sound (life : Life) : Prop where
  /-- At most one worker of the name has not exited. -/
  oneWorker : ∀ v w, life.alive v = true → life.alive w = true → v = w
  /-- At most one spawn walks or uninstall deletes, -/
  alone : ∀ n m, (life.stage n).critical = true → (life.stage m).critical = true → n = m
  /-- with no worker alive, -/
  nobody : ∀ n w, (life.stage n).critical = true → life.alive w = false
  /-- and with every earlier broker idle or waited for long enough. -/
  settled : ∀ n, (life.stage n).critical = true → ∀ w < life.started, (life.workers w).inFlight = 0 ∨
    ∃ since, (life.workers w).settling = .settled since ∧ since + idleBoundMs ≤ life.now
  /-- An uninstall that found the name in use deletes nothing. -/
  refused : ∀ request ∈ life.found, request ∉ life.deletes

/-! What every step keeps. -/
section Invariant

variable {life : Life} {n : Nat}

structure Inv (life : Life) : Prop where
  ordered : Ordered life.links life.turn
  entry : ∀ w, life.entry = some w → w < life.started
  noted : ∀ w < life.started, (life.workers w).hasExited = true → (life.workers w).exited = true
  /-- A worker that has not exited is the tracked one, -/
  alive : ∀ w < life.started, (life.workers w).exited = false → life.entry = some w
  /-- and all others have settled. -/
  others : ∀ w < life.started, life.hasSettled (some w) = true ∨ life.entry = some w
  exited : ∀ w < life.started, (life.workers w).settling ≠ .running → (life.workers w).exited = true
  idle : ∀ w < life.started, ∀ since, (life.workers w).settling = .settled since →
    (life.workers w).inFlight = 0 ∨ since + idleBoundMs ≤ life.now
  terminating : ∀ n v, life.stage n = .terminating v → ∀ w < life.started, (life.workers w).exited = false → w = v
  settling : ∀ n target, life.stage n = .settling target → ∀ w < life.started,
    (life.workers w).exited = true ∧ (life.hasSettled (some w) = true ∨ target = some w)
  critical : ∀ n, (life.stage n).critical = true → ∀ w < life.started, life.hasSettled (some w) = true
  /-- The uninstalls in the lock, and what became of those that were asked for. -/
  asked : ∀ n < life.links.next, ∀ request, life.work n = .uninstall request → request < life.requests
  once : ∀ n < life.links.next, ∀ m < life.links.next, ∀ request, life.work n = .uninstall request →
    life.work m = .uninstall request → n = m
  found : ∀ request ∈ life.found, request < life.requests ∧ request ∉ life.deletes ∧
    ∀ n < life.links.next, life.work n = .uninstall request → life.stage n = .done
  deletes : ∀ request ∈ life.deletes, ∃ n < life.links.next, life.work n = .uninstall request ∧
    ((life.stage n).critical = true ∨ life.stage n = .done)

theorem fresh_inv : Inv Life.fresh where
  ordered := ordered_empty fun _ => rfl
  entry := fun _ isEntry => nomatch isEntry
  noted := fun w bound => absurd bound (Nat.not_lt_zero w)
  alive := fun w bound => absurd bound (Nat.not_lt_zero w)
  others := fun w bound => absurd bound (Nat.not_lt_zero w)
  exited := fun w bound => absurd bound (Nat.not_lt_zero w)
  idle := fun w bound => absurd bound (Nat.not_lt_zero w)
  terminating := fun _ _ _ w bound => absurd bound (Nat.not_lt_zero w)
  settling := fun _ _ _ w bound => absurd bound (Nat.not_lt_zero w)
  critical := fun _ _ w bound => absurd bound (Nat.not_lt_zero w)
  asked := fun n bound => absurd bound (Nat.not_lt_zero n)
  once := fun n bound => absurd bound (Nat.not_lt_zero n)
  found := fun _ member => absurd member List.not_mem_nil
  deletes := fun _ member => absurd member List.not_mem_nil

theorem exited_of_settled (inv : Inv life) {w : Nat} (bound : w < life.started)
    (settled : life.hasSettled (some w) = true) : (life.workers w).exited = true := by
  apply inv.exited w bound
  intro running
  simp [Life.hasSettled, running] at settled

theorem running_of_critical (critical : (life.stage n).critical = true) : life.turn n = .running := by
  unfold Life.turn
  cases isStage : life.stage n <;> simp [isStage, Stage.critical, Stage.turn] at critical ⊢

theorem Inv.sound (inv : Inv life) : Sound life where
  oneWorker := by
    intro v w first second
    simp only [Life.alive, Bool.and_eq_true, decide_eq_true_eq, Bool.not_eq_true'] at first second
    have isFirst := inv.alive v first.1 first.2
    have isSecond := inv.alive w second.1 second.2
    exact Option.some_inj.mp (isFirst.symm.trans isSecond)
  alone := fun n m first second => inv.ordered.alone (running_of_critical first) (running_of_critical second)
  nobody := by
    intro n w critical
    by_cases bound : w < life.started
    · simp [Life.alive, exited_of_settled inv bound (inv.critical n critical w bound)]
    · simp [Life.alive, bound]
  settled := by
    intro n critical w bound
    have settled := inv.critical n critical w bound
    cases isSettling : (life.workers w).settling with
    | settled since => exact (inv.idle w bound since isSettling).imp_right fun late => ⟨since, rfl, late⟩
    | _ => simp [Life.hasSettled, isSettling] at settled
  refused := fun request member => (inv.found request member).2.1

theorem turn_withStage (life : Life) (n : Nat) (stage : Stage) :
    (life.withStage n stage).turn = Function.update life.turn n stage.turn := by
  funext m
  by_cases same : m = n <;> simp [Life.turn, Life.withStage, same]

theorem Inv.withStage {stage : Stage} (inv : Inv life) (notDone : life.stage n ≠ .done)
    (ordered : Ordered life.links (Function.update life.turn n stage.turn))
    (terminating : ∀ v, stage = .terminating v → ∀ w < life.started, (life.workers w).exited = false → w = v)
    (settling : ∀ target, stage = .settling target → ∀ w < life.started,
      (life.workers w).exited = true ∧ (life.hasSettled (some w) = true ∨ target = some w))
    (critical : stage.critical = true → ∀ w < life.started, life.hasSettled (some w) = true)
    (kept : (life.stage n).critical = true → stage.critical = true ∨ stage = .done) :
    Inv (life.withStage n stage) := by
  have others {m : Nat} (differs : m ≠ n) : (life.withStage n stage).stage m = life.stage m := by
    simp [Life.withStage, differs]
  have own : (life.withStage n stage).stage n = stage := by simp [Life.withStage]
  constructor
  · rw [turn_withStage]
    exact ordered
  · exact inv.entry
  · exact inv.noted
  · exact inv.alive
  · exact inv.others
  · exact inv.exited
  · exact inv.idle
  · intro m v isStage
    by_cases same : m = n
    · subst same
      exact terminating v (own.symm.trans isStage)
    · exact inv.terminating m v ((others same).symm.trans isStage)
  · intro m target isStage
    by_cases same : m = n
    · subst same
      exact settling target (own.symm.trans isStage)
    · exact inv.settling m target ((others same).symm.trans isStage)
  · intro m isCritical
    by_cases same : m = n
    · subst same
      exact critical (own ▸ isCritical)
    · exact inv.critical m (others same ▸ isCritical)
  · exact inv.asked
  · exact inv.once
  · intro request member
    obtain ⟨bound, notDeleted, ended⟩ := inv.found request member
    refine ⟨bound, notDeleted, fun m less isWork => ?_⟩
    have differs : m ≠ n := by
      rintro rfl
      exact notDone (ended m less isWork)
    exact (others differs).trans (ended m less isWork)
  · intro request member
    obtain ⟨m, less, isWork, place⟩ := inv.deletes request member
    refine ⟨m, less, isWork, ?_⟩
    by_cases same : m = n
    · subst same
      rw [own]
      exact kept (place.resolve_right notDone)
    · rw [others same]
      exact place

theorem waiting_of_ready (ready : life.links.ready life.turn n = true) : life.stage n = .waiting := by
  simp only [Links.ready, Bool.and_eq_true, decide_eq_true_eq] at ready
  have waiting := ready.1.2
  unfold Life.turn at waiting
  cases isStage : life.stage n <;> simp [isStage, Stage.turn] at waiting ⊢

/-- A section begins when no worker is alive: it waits for the tracked one to settle. -/
theorem Inv.awaits (inv : Inv life) (dead : ∀ w < life.started, (life.workers w).exited = true) :
    ∀ target, Stage.settling life.entry = .settling target → ∀ w < life.started,
      (life.workers w).exited = true ∧ (life.hasSettled (some w) = true ∨ target = some w) := by
  rintro target ⟨⟩ w bound
  exact ⟨dead w bound, inv.others w bound⟩

theorem dead_of_not_live (inv : Inv life) (notLive : life.live = none) :
    ∀ w < life.started, (life.workers w).exited = true := by
  intro w bound
  cases isExited : (life.workers w).exited with
  | true => rfl
  | false =>
      have isEntry := inv.alive w bound isExited
      have noted : (life.workers w).hasExited = true := by
        by_contra differs
        simp [Life.live, isEntry, differs] at notLive
      exact isExited.symm.trans (inv.noted w bound noted)

theorem enterSpawn_inv {wanted : Option Nat} (inv : Inv life) (ready : life.links.ready life.turn n = true) :
    Inv (life.enterSpawn n wanted).1 := by
  have waiting := waiting_of_ready ready
  have notDone : life.stage n ≠ .done := by simp [waiting]
  have notCritical : ¬ (life.stage n).critical = true := by simp [waiting, Stage.critical]
  unfold Life.enterSpawn
  split
  · next w isLive =>
      split
      · refine inv.withStage notDone (inv.ordered.enter ready) ?_ ?_ ?_ fun critical => absurd critical notCritical
        · rintro v ⟨⟩
        · rintro target ⟨⟩
        · rintro ⟨⟩
      · refine inv.withStage notDone (inv.ordered.enter ready) ?_ ?_ ?_ fun critical => absurd critical notCritical
        · rintro v ⟨⟩ other bound isAlive
          -- the live worker is the tracked one, and so is whoever has not exited
          have isEntry := inv.alive other bound isAlive
          unfold Life.live at isLive
          rw [isEntry] at isLive
          dsimp only at isLive
          split at isLive
          · cases isLive
          · exact Option.some_inj.mp isLive
        · rintro target ⟨⟩
        · rintro ⟨⟩
  · next notLive =>
      refine inv.withStage notDone (inv.ordered.enter ready) ?_ (inv.awaits (dead_of_not_live inv notLive)) ?_
        fun critical => absurd critical notCritical
      · rintro v ⟨⟩
      · rintro ⟨⟩

theorem Inv.ends (inv : Inv life) (notDone : life.stage n ≠ .done)
    (ordered : Ordered life.links (Function.update life.turn n .done)) : Inv (life.withStage n .done) := by
  refine inv.withStage notDone ordered ?_ ?_ ?_ fun _ => .inr rfl
  · rintro v ⟨⟩
  · rintro target ⟨⟩
  · rintro ⟨⟩

theorem enterUninstall_inv {request : Nat} {busy : Bool} (inv : Inv life)
    (ready : life.links.ready life.turn n = true) (isWork : life.work n = .uninstall request)
    (notLive : busy = false → life.live = none) : Inv (life.enterUninstall n request busy) := by
  have waiting := waiting_of_ready ready
  have notDone : life.stage n ≠ .done := by simp [waiting]
  have bound := (inv.ordered.cleared ready).1
  unfold Life.enterUninstall
  split
  · have ended := inv.ends notDone (inv.ordered.enter ready)
    -- its request is still its own, and it has deleted nothing
    have fresh : request ∉ life.deletes := by
      intro member
      obtain ⟨m, less, isOther, place⟩ := inv.deletes request member
      have same := inv.once n bound m less request isWork isOther
      subst same
      simp [waiting, Stage.critical] at place
    refine { ended with found := ?_ }
    intro other member
    rcases List.mem_cons.mp member with rfl | old
    · refine ⟨inv.asked n bound other isWork, fresh, fun m less isOther => ?_⟩
      have same := inv.once n bound m less other isWork isOther
      subst same
      simp [Life.withStage]
    · exact ended.found other old
  · next free =>
      have dead := dead_of_not_live inv (notLive (by simpa using free))
      refine inv.withStage notDone (inv.ordered.enter ready) ?_ (inv.awaits dead) ?_ ?_
      · rintro v ⟨⟩
      · rintro ⟨⟩
      · simp [waiting, Stage.critical]

theorem Inv.stays {stage : Stage} (inv : Inv life) (before : life.turn n = .running) (after : stage.turn = .running) :
    Ordered life.links (Function.update life.turn n stage.turn) := by
  rw [after, ← before, Function.update_eq_self]
  exact inv.ordered

theorem terminated_inv (inv : Inv life) : Inv (life.terminated n) := by
  unfold Life.terminated
  split
  · next w isStage =>
      split
      · next isExited =>
          have dead : ∀ v < life.started, (life.workers v).exited = true := by
            intro v bound
            cases alive : (life.workers v).exited with
            | true => rfl
            | false => rw [← alive, inv.terminating n w isStage v bound alive, isExited]
          have running : life.turn n = .running := by simp [Life.turn, isStage, Stage.turn]
          refine inv.withStage (by simp [isStage]) (inv.stays running rfl) ?_ (inv.awaits dead) ?_ ?_
          · rintro v ⟨⟩
          · rintro ⟨⟩
          · simp [isStage, Stage.critical]
      · exact inv
  · exact inv

/-- The wait is over: every broker has settled. -/
theorem Inv.enters {stage : Stage} {target : Option Nat} (inv : Inv life) (isStage : life.stage n = .settling target)
    (settled : life.hasSettled target = true) (critical : stage.critical = true) : Inv (life.withStage n stage) := by
  have running : life.turn n = .running := by simp [Life.turn, isStage, Stage.turn]
  have after : stage.turn = .running := by
    cases stage <;> simp [Stage.critical, Stage.turn] at critical ⊢
  refine inv.withStage (by simp [isStage]) (inv.stays running after) ?_ ?_ ?_ fun _ => .inl critical
  · rintro v rfl
    cases critical
  · rintro other rfl
    cases critical
  · intro _ w bound
    rcases (inv.settling n target isStage w bound).2 with done | isTarget
    · exact done
    · exact isTarget ▸ settled

theorem proceed_inv (inv : Inv life) : Inv (life.proceed n) := by
  unfold Life.proceed
  split
  · next target isStage =>
      have bound := (inv.ordered.turn n (by simp [Life.turn, isStage, Stage.turn])).1
      split
      · next settled =>
          split
          · exact inv.enters isStage settled rfl
          · next request isWork =>
              have entered : Inv (life.withStage n .removing) := inv.enters isStage settled rfl
              refine { entered with found := ?_, deletes := ?_ }
              · intro other member
                obtain ⟨less, notDeleted, ended⟩ := entered.found other member
                refine ⟨less, ?_, ended⟩
                intro isDeleted
                rcases List.mem_cons.mp isDeleted with rfl | old
                · have isDone := ended n bound isWork
                  simp [Life.withStage] at isDone
                · exact notDeleted old
              · intro other member
                rcases List.mem_cons.mp member with rfl | old
                · exact ⟨n, bound, isWork, .inl (by simp [Life.withStage, Stage.critical])⟩
                · exact entered.deletes other old
      · exact inv
  · exact inv

/-- A new worker, when all earlier ones have settled. -/
theorem start_inv (inv : Inv life) (walking : life.stage n = .walking) : Inv (life.start n) := by
  have running : life.turn n = .running := by simp [Life.turn, walking, Stage.turn]
  have ended := inv.ends (by simp [walking]) (inv.ordered.leave running)
  have settled := inv.critical n (by simp [walking, Stage.critical])
  have others {w : Nat} (bound : w < (life.start n).started) (differs : w ≠ life.started) :
      w < life.started ∧ (life.start n).workers w = life.workers w := by
    simp only [Life.start] at bound ⊢
    exact ⟨by omega, by simp [differs]⟩
  have own : (life.start n).workers life.started = ⟨false, false, .running, 0⟩ := by simp [Life.start]
  -- no other job is inside: it would be running
  have noStage {m : Nat} (isRunning : (life.start n).turn m = .running) : False := by
    have differs : m ≠ n := by
      rintro rfl
      simp [Life.turn, Life.start, Life.withStage, Stage.turn] at isRunning
    have before : life.turn m = .running := by
      simpa [Life.turn, Life.start, Life.withStage, differs] using isRunning
    exact differs (inv.ordered.alone before running)
  constructor
  · exact ended.ordered
  · rintro w ⟨⟩
    exact Nat.lt_succ_self _
  · intro w bound
    by_cases same : w = life.started
    · subst same
      simp [own]
    · obtain ⟨less, isOld⟩ := others bound same
      rw [isOld]
      exact inv.noted w less
  · intro w bound
    by_cases same : w = life.started
    · exact fun _ => same ▸ rfl
    · obtain ⟨less, isOld⟩ := others bound same
      rw [isOld]
      intro isAlive
      rw [exited_of_settled inv less (settled w less)] at isAlive
      cases isAlive
  · intro w bound
    by_cases same : w = life.started
    · exact .inr (same ▸ rfl)
    · obtain ⟨less, isOld⟩ := others bound same
      have before := settled w less
      simp only [Life.hasSettled] at before ⊢
      rw [isOld]
      exact .inl before
  · intro w bound
    by_cases same : w = life.started
    · subst same
      simp [own]
    · obtain ⟨less, isOld⟩ := others bound same
      rw [isOld]
      exact inv.exited w less
  · intro w bound
    by_cases same : w = life.started
    · subst same
      simp [own]
    · obtain ⟨less, isOld⟩ := others bound same
      rw [isOld]
      exact inv.idle w less
  · intro m v isStage
    exact (noStage (m := m) (by simp [Life.turn, isStage, Stage.turn])).elim
  · intro m target isStage
    exact (noStage (m := m) (by simp [Life.turn, isStage, Stage.turn])).elim
  · intro m isCritical
    exact (noStage (running_of_critical isCritical)).elim
  · exact ended.asked
  · exact ended.once
  · exact ended.found
  · exact ended.deletes

theorem Inv.withWorker {w : Nat} {worker : Worker} (inv : Inv life)
    (exits : (life.workers w).exited = true → worker.exited = true)
    (noted : w < life.started → worker.hasExited = true → worker.exited = true)
    (settles : life.hasSettled (some w) = true → ∃ since, worker.settling = .settled since)
    (exited : w < life.started → worker.settling ≠ .running → worker.exited = true)
    (idle : w < life.started → ∀ since, worker.settling = .settled since →
      worker.inFlight = 0 ∨ since + idleBoundMs ≤ life.now) :
    Inv (life.withWorker w worker) := by
  have others {v : Nat} (differs : v ≠ w) : (life.withWorker w worker).workers v = life.workers v := by
    simp [Life.withWorker, differs]
  have own : (life.withWorker w worker).workers w = worker := by simp [Life.withWorker]
  have dead {v : Nat} (isExited : (life.workers v).exited = true) :
      ((life.withWorker w worker).workers v).exited = true := by
    by_cases same : v = w
    · subst same
      rw [own]
      exact exits isExited
    · rwa [others same]
  have wasAlive {v : Nat} (isAlive : ((life.withWorker w worker).workers v).exited = false) :
      (life.workers v).exited = false := by
    cases before : (life.workers v).exited with
    | false => rfl
    | true => exact isAlive.symm.trans (dead before) |>.symm
  have stillSettled {v : Nat} (settled : life.hasSettled (some v) = true) :
      (life.withWorker w worker).hasSettled (some v) = true := by
    by_cases same : v = w
    · subst same
      obtain ⟨since, isSettled⟩ := settles settled
      simp [Life.hasSettled, own, isSettled]
    · simpa [Life.hasSettled, others same] using settled
  constructor
  · exact inv.ordered
  · exact inv.entry
  · intro v bound
    by_cases same : v = w
    · subst same
      rw [own]
      exact noted bound
    · rw [others same]
      exact inv.noted v bound
  · exact fun v bound isAlive => inv.alive v bound (wasAlive isAlive)
  · exact fun v bound => (inv.others v bound).imp_left stillSettled
  · intro v bound
    by_cases same : v = w
    · subst same
      rw [own]
      exact exited bound
    · rw [others same]
      exact inv.exited v bound
  · intro v bound
    by_cases same : v = w
    · subst same
      rw [own]
      exact idle bound
    · rw [others same]
      exact inv.idle v bound
  · exact fun n v isStage u bound isAlive => inv.terminating n v isStage u bound (wasAlive isAlive)
  · intro n target isStage v bound
    exact (inv.settling n target isStage v bound).imp dead (Or.imp_left stillSettled)
  · exact fun n isCritical v bound => stillSettled (inv.critical n isCritical v bound)
  · exact inv.asked
  · exact inv.once
  · exact inv.found
  · exact inv.deletes

theorem worker_inv {w : Nat} (event : WorkerEvent) (inv : Inv life) (bound : w < life.started) :
    Inv (life.worker w event) := by
  have same : life.hasSettled (some w) = true → ∃ since, (life.workers w).settling = .settled since := by
    intro settled
    cases isSettling : (life.workers w).settling with
    | settled since => exact ⟨since, rfl⟩
    | _ => simp [Life.hasSettled, isSettling] at settled
  have notYet {stage : Settling} (isSettling : (life.workers w).settling = stage)
      (differs : ∀ since, stage ≠ .settled since) : life.hasSettled (some w) = true → False := by
    intro settled
    obtain ⟨since, isSettled⟩ := same settled
    exact differs since (isSettling.symm.trans isSettled)
  unfold Life.worker
  dsimp only
  split
  · exact inv.withWorker (fun _ => rfl) (fun _ _ => rfl) same (fun _ _ => rfl) (inv.idle w)
  · split
    · next isExited =>
        exact inv.withWorker id (fun _ _ => isExited) same (inv.exited w) (inv.idle w)
    · exact inv
  · next isSettling =>
      split
      · next isExited =>
          refine inv.withWorker id (inv.noted w) ?_ (fun _ _ => isExited) fun _ since settled => nomatch settled
          exact fun settled => (notYet isSettling (by simp) settled).elim
      · exact inv
  · next isSettling =>
      have isExited := inv.exited w bound (by simp [isSettling])
      refine inv.withWorker id (inv.noted w) ?_ (fun _ _ => isExited) fun _ since settled => nomatch settled
      exact fun settled => (notYet isSettling (by simp) settled).elim
  · next since isSettling =>
      have isExited := inv.exited w bound (by simp [isSettling])
      split
      · next ended =>
          refine inv.withWorker id (inv.noted w) (fun _ => ⟨since, rfl⟩) (fun _ _ => isExited) ?_
          rintro _ other ⟨⟩
          simpa using ended
      · exact inv
  · next since isSettling =>
      split
      · next isEntry =>
          have isSettled : life.hasSettled (some w) = true := by simp [Life.hasSettled, isSettling]
          have isExited := exited_of_settled inv bound isSettled
          refine { inv with entry := ?_, alive := ?_, others := ?_ }
          · rintro v ⟨⟩
          · intro v less isAlive
            have isTracked := inv.alive v less isAlive
            rw [isEntry] at isTracked
            cases isTracked
            exact absurd (isAlive.symm.trans isExited) (by simp)
          · intro v less
            rcases inv.others v less with settled | isTracked
            · exact .inl settled
            · rw [isEntry] at isTracked
              cases isTracked
              exact .inl isSettled
      · exact inv
  · next isSettling =>
      refine inv.withWorker id (inv.noted w) same (inv.exited w) ?_
      intro _ since settled
      rw [isSettling] at settled
      cases settled
  · refine inv.withWorker id (inv.noted w) same (inv.exited w) ?_
    intro _ since settled
    refine (inv.idle w bound since settled).imp_left fun none => ?_
    simp [none]
  · exact inv

theorem Inv.run {work : Work} (inv : Inv life)
    (new : ∀ request, work = .uninstall request → request < life.requests ∧ request ∉ life.found ∧
      ∀ n < life.links.next, life.work n ≠ .uninstall request) : Inv (life.run work) := by
  have others {m : Nat} (bound : m < (life.run work).links.next) (differs : m ≠ life.links.next) :
      m < life.links.next ∧ (life.run work).work m = life.work m := by
    simp only [Life.run, Links.append] at bound ⊢
    exact ⟨by omega, by simp [differs]⟩
  have own : (life.run work).work life.links.next = work := by simp [Life.run]
  refine { inv with ordered := inv.ordered.append, asked := ?_, once := ?_, found := ?_, deletes := ?_ }
  · intro m bound request isWork
    by_cases same : m = life.links.next
    · subst same
      exact (new request (own.symm.trans isWork)).1
    · obtain ⟨less, isOld⟩ := others bound same
      exact inv.asked m less request (isOld.symm.trans isWork)
  · intro m bound k bound' request isWork isOther
    by_cases same : m = life.links.next
    · subst same
      have unused := (new request (own.symm.trans isWork)).2.2
      by_contra differs
      obtain ⟨less, isOld⟩ := others bound' (Ne.symm differs)
      exact unused k less (isOld.symm.trans isOther)
    · obtain ⟨less, isOld⟩ := others bound same
      by_cases same' : k = life.links.next
      · subst same'
        exact absurd (isOld.symm.trans isWork) ((new request (own.symm.trans isOther)).2.2 m less)
      · obtain ⟨less', isOld'⟩ := others bound' same'
        exact inv.once m less k less' request (isOld.symm.trans isWork) (isOld'.symm.trans isOther)
  · intro request member
    obtain ⟨less, notDeleted, ended⟩ := inv.found request member
    refine ⟨less, notDeleted, fun m bound isWork => ?_⟩
    by_cases same : m = life.links.next
    · subst same
      exact absurd member (new request (own.symm.trans isWork)).2.1
    · obtain ⟨less, isOld⟩ := others bound same
      exact ended m less (isOld.symm.trans isWork)
  · intro request member
    obtain ⟨m, bound, isWork, place⟩ := inv.deletes request member
    have differs : m ≠ life.links.next := Nat.ne_of_lt bound
    exact ⟨m, Nat.lt_succ_of_lt bound, by simpa [Life.run, differs] using isWork, place⟩

theorem dropChain_inv (inv : Inv life) : Inv life.dropChain := by
  unfold Life.dropChain
  split
  · next last isLast =>
      split
      · next isDone => exact { inv with ordered := inv.ordered.forget isLast isDone }
      · exact inv
  · exact inv

theorem tick_inv (ms : Nat) (inv : Inv life) : Inv { life with now := life.now + ms } := by
  refine { inv with idle := ?_ }
  intro w bound since settled
  refine (inv.idle w bound since settled).imp_right fun late => ?_
  dsimp only
  omega

end Invariant

/-! Steps and runs. -/
section Runs

variable {state : State}

theorem spawn_inv (wanted : Option Nat) (check : Check) (inv : Inv state.life) :
    Inv (state.spawnModuleWorker wanted check).life := by
  cases check with
  | passes => exact inv.run fun request isWork => nomatch isWork
  | fails => exact inv
  | refused => exact inv

theorem load_inv (check : Check) (inv : Inv state.life) : Inv (state.loadModuleByWorker check).life := by
  unfold State.loadModuleByWorker
  dsimp only
  split
  · exact spawn_inv none check inv
  · exact inv

theorem restart_inv (check : Check) (inv : Inv state.life) : Inv (state.restartModule check).life := by
  unfold State.restartModule
  split
  · exact inv
  · exact load_inv check inv
  · exact inv

theorem unloadEnds_inv (i : Nat) (check : Check) (inv : Inv state.life) : Inv (state.unloadEnds i check).life := by
  unfold State.unloadEnds
  split
  · split
    · dsimp only
      split
      · exact inv
      · exact spawn_inv none check inv
      · exact load_inv check inv
    · exact inv
  · exact inv

theorem timerFires_inv (check : Check) (inv : Inv state.life) : Inv (state.timerFires check).life := by
  unfold State.timerFires
  split
  · split
    · dsimp only
      split
      · exact spawn_inv _ check inv
      · exact inv
    · exact inv
  · exact inv

/-- Asking for an uninstall takes a number that nobody has. -/
theorem uninstall_inv (inv : Inv state.life) : Inv state.uninstallModule.life := by
  have unused : state.life.requests ∉ state.life.deletes := by
    intro member
    obtain ⟨m, less, isWork, -⟩ := inv.deletes _ member
    exact absurd (inv.asked m less _ isWork) (Nat.lt_irrefl _)
  have free : ∀ n < state.life.links.next, state.life.work n ≠ .uninstall state.life.requests :=
    fun n less isWork => absurd (inv.asked n less _ isWork) (Nat.lt_irrefl _)
  have asked : Inv { state.life with requests := state.life.requests + 1 } := by
    refine { inv with asked := ?_, found := ?_ }
    · exact fun n less request isWork => Nat.lt_succ_of_lt (inv.asked n less request isWork)
    · intro request member
      have known := inv.found request member
      exact ⟨Nat.lt_succ_of_lt known.1, known.2⟩
  unfold State.uninstallModule
  dsimp only
  split
  · refine { asked with found := ?_ }
    intro request member
    rcases List.mem_cons.mp member with rfl | old
    · exact ⟨Nat.lt_succ_self _, unused, fun n less isWork => absurd isWork (free n less)⟩
    · exact asked.found request old
  · refine asked.run ?_
    rintro request ⟨⟩
    refine ⟨Nat.lt_succ_self _, fun member => ?_, free⟩
    exact absurd (inv.found _ member).1 (Nat.lt_irrefl _)

theorem enter_inv (n : Nat) (inv : Inv state.life) : Inv (state.enter n).life := by
  unfold State.enter
  split
  · next ready =>
      split
      · exact enterSpawn_inv inv ready
      · next request isWork =>
          refine enterUninstall_inv inv ready isWork fun free => ?_
          simp only [State.busy, Bool.or_eq_false_iff, Option.isSome_eq_false_iff, Option.isNone_iff_eq_none] at free
          exact free.2
  · exact inv

theorem walked_inv (n : Nat) (walk : Walk) (inv : Inv state.life) : Inv (state.walked n walk).life := by
  unfold State.walked
  split
  · next wanted walking _ =>
      have running : state.life.turn n = .running := by simp [Life.turn, walking, Stage.turn]
      have ended := inv.ends (by simp [walking]) (inv.ordered.leave running)
      cases walk with
      | starts => exact start_inv inv walking
      | trackedThrows => exact start_inv inv walking
      | fails => exact ended
      | refused => exact ended
      | startThrows => exact ended
  · exact inv

theorem removed_inv (n : Nat) (ok : Bool) (inv : Inv state.life) : Inv (state.removed n ok).life := by
  unfold State.removed
  split
  · next removing =>
      have running : state.life.turn n = .running := by simp [Life.turn, removing, Stage.turn]
      cases ok with
      | false => exact inv.ends (by simp [removing]) (inv.ordered.leave running)
      | true =>
          refine inv.withStage (by simp [removing]) (inv.stays running rfl) ?_ ?_ ?_ fun _ => .inl rfl
          · rintro v ⟨⟩
          · rintro target ⟨⟩
          · exact fun _ => inv.critical n (by simp [removing, Stage.critical])
  · next deleting =>
      have running : state.life.turn n = .running := by simp [Life.turn, deleting, Stage.turn]
      exact inv.ends (by simp [deleting]) (inv.ordered.leave running)
  · exact inv

theorem step_inv (event : Event) (inv : Inv state.life) : Inv (step state event).life := by
  cases event with
  | tick ms => exact tick_inv ms inv
  | load check => exact load_inv check inv
  | restart check => exact restart_inv check inv
  | unload => exact inv
  | unloadAnswered i =>
      simp only [step, State.unloadAnswered]
      split
      · split <;> exact inv
      · exact inv
  | unloadEnds i check => exact unloadEnds_inv i check inv
  | timerFires check => exact timerFires_inv check inv
  | uninstall => exact uninstall_inv inv
  | enter n => exact enter_inv n inv
  | terminated n => exact terminated_inv inv
  | proceed n => exact proceed_inv inv
  | walked n walk => exact walked_inv n walk inv
  | removed n ok => exact removed_inv n ok inv
  | dropChain => exact dropChain_inv inv
  | crash w =>
      simp only [step]
      split <;> exact inv
  | loadAnswered w ok =>
      simp only [step]
      split <;> exact inv
  | worker w event =>
      simp only [step]
      split
      · next bound => exact worker_inv event inv bound
      · exact inv

theorem run_inv (events : List Event) (inv : Inv state.life) : Inv (run state events).life := by
  induction events generalizing state with
  | nil => exact inv
  | cons event rest ih => exact ih (step_inv event inv)

/-- However loads, reloads, supervised restarts, exits and uninstalls of a name come in between each other, the name
has one worker at most, spawns and deletions are alone and wait for the last broker, and a name in use keeps its
data. -/
theorem one_worker_per_name (supervised : Bool) (events : List Event) :
    Sound (run (State.fresh supervised) events).life := by
  have start : Inv (State.fresh supervised).life := fresh_inv
  exact (run_inv events start).sound

/-- A reload: the second worker starts when the first has exited and its broker has settled. -/
def reload : List Event :=
  [.load .passes, .enter 0, .proceed 0, .walked 0 .starts, .loadAnswered 0 true, .load .passes, .unloadAnswered 0,
    .worker 0 .exit, .unloadEnds 0 .passes, .worker 0 .noteExit, .enter 1, .worker 0 .closeBridge,
    .worker 0 .bridgeClosed, .worker 0 .settle, .proceed 1, .walked 1 .starts]

example : (run (State.fresh true) reload).life.started = 2 ∧
    (List.range 2).map (run (State.fresh true) reload).life.alive = [false, true] := by decide

end Runs

end Countinghouse.ModuleLifecycle
