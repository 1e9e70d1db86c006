import Countinghouse.BrokerClosing

/-!
The size of a broker's descriptor table. `open` looks at the size before it opens its file and
puts the descriptor into the table after it has looked at the file, and others may do so in between.
-/

namespace Countinghouse.DescriptorTable

open HostCalls FileNamespace BrokerWorld FsBroker Obligations DescriptorDuty BrokerClosing
open Program (Prog)

/-! Who finds room before a descriptor is added. -/
section Finding

/-- Whether an operation has found room that it has not used. -/
def roomAfter (found : Bool) : (action : Act) → action.Answer → Bool
  | .fdCount, size => found || decide (size < maxFds)
  | .fdAdd _, _ => false
  | _, _ => found

/-- Nothing is added without it. -/
def mayAdd (found : Bool) : Act → Prop
  | .fdAdd _ => found = true
  | _ => True

def roomLedger : Ledger Act Act.Answer Bool := ⟨mayAdd, fun _ _ _ => True, roomAfter⟩

/-- Every action but the one that adds a descriptor. -/
def Apart : Act → Prop
  | .fdAdd _ => False
  | _ => True

variable {α : Type} {found : Bool}

theorem apart_quiet {code : Code α} (only : Only Quiet code) : Only Apart code := by
  refine only_mono (fun action quiet => ?_) only
  cases action with
  | fdAdd => exact quiet.elim
  | _ => trivial

theorem apart_closing {code : Code α} (only : Only Closing code) : Only Apart code := by
  refine only_mono (fun action closing => ?_) only
  cases action with
  | fdAdd => exact closing.elim
  | _ => trivial

theorem apart_act {action : Act} (apart : Apart action) : Only Apart (FsBroker.perform action) :=
  ⟨apart, fun _ => trivial⟩

/-- Room that was found stays found. -/
def Keeps (found after : Bool) : Prop := found = true → after = true

theorem keeps_refl (found : Bool) : Keeps found found := id

theorem Keeps.trans {found middle after : Bool} (first : Keeps found middle) (second : Keeps middle after) :
    Keeps found after := fun isFound => second (first isFound)

theorem apart_keeps (found : Bool) (action : Act) (apart : Apart action) :
    roomLedger.may found action ∧ ∀ answer, roomLedger.comes found action answer →
      Keeps found (roomLedger.after found action answer) := by
  cases action with
  | fdAdd => exact apart.elim
  | fdCount => exact ⟨trivial, fun size _ isFound => by simp [roomLedger, roomAfter, isFound]⟩
  | _ => exact ⟨trivial, fun _ _ => id⟩

theorem owes_apart {code : Code α} (only : Only Apart code) :
    Owes roomLedger (fun _ => Keeps found) (fun _ => Keeps found) code found :=
  owes_only keeps_refl (fun first second => first.trans second) apart_keeps only

/-- Whatever it has found, and whatever it ends with. -/
def Adds (code : Code α) (found : Bool) : Prop := Owes roomLedger (fun _ _ => True) (fun _ _ => True) code found

theorem adds_apart {code : Code α} (only : Only Apart code) : Adds code found :=
  owes_mono (owes_apart only) (fun _ _ _ => trivial) (fun _ _ _ => trivial)

/-- What comes after code that adds nothing still has the room that was found before. -/
theorem adds_after {β : Type} {first : Code α} {rest : α → Code β} (only : Only Apart first)
    (later : ∀ value, Adds (rest value) true) : Adds (first >>= rest) true := by
  apply owes_bind (owes_mono (owes_apart only) (fun _ _ kept => kept rfl) fun _ _ _ => trivial)
  intro value after isFound
  rw [isFound]
  exact later value

theorem adds_bind {β : Type} {first : Code α} {rest : α → Code β} (head : Adds first found)
    (later : ∀ value found, Adds (rest value) found) : Adds (first >>= rest) found :=
  owes_bind head fun value after _ => later value after

/-- The size of the table is looked at. -/
theorem owes_act_room {ok : Nat → Bool → Prop} (holds : ∀ size, ok size (roomAfter found .fdCount size)) :
    Owes roomLedger ok (fun _ _ => True) fdSize found := ⟨trivial, fun size _ => holds size⟩

theorem adds_throw (error : NodeError) : Adds (throw error : Code α) found := trivial

end Finding

/-! The operations. -/
section Operations

variable (b : Broker) {found : Bool}

theorem apart_fsOpen (path : HostTree.Path) (flags : OpenFlags) (mode : Nat) : Only Apart (fsOpen path flags mode) :=
  only_bind (apart_act trivial) fun _ => apart_quiet (only_raised _ _)

theorem apart_fhClose (handle : Nat) : Only Apart (fhClose handle) := apart_act trivial

theorem apart_ensure {α : Type} {body : Code α} {last : Code Unit} (first : Only Apart body) (ends : Only Apart last) :
    Only Apart (body.ensure last) := by
  refine only_bind (only_catch first fun error => ?_) fun value => ?_
  · exact only_bind ends fun _ => only_throw _
  · exact only_bind ends fun _ => only_pure _

theorem apart_refuseSpecial (handle : Nat) (p : Placed) (st : Stats) : Only Apart (refuseSpecial b handle p st) := by
  refine apart_closing ?_
  refine only_ite (only_bind (closing_quiet (quiet_report b _ _)) fun _ => ?_) (only_pure _)
  exact only_ite (only_bind ⟨trivial, fun _ => trivial⟩ fun _ => only_throw _) (only_pure _)

theorem apart_close (fd : Nat) : Only Apart (close fd) := by
  refine only_bind (apart_quiet (quiet_fdEntry _ _)) fun entry => only_bind (apart_act trivial) fun _ => ?_
  exact only_bind (apart_fhClose _) fun _ => only_pure _

theorem adds_finishOpen (handle : Nat) (p : Placed) (flags : OpenFlags) (counted : Bool) :
    Adds (finishOpen b handle p flags counted) true := by
  refine adds_after (apart_closing (closing_verifyOpened b _ _ _ _)) fun _ => ?_
  refine adds_after (apart_quiet (quiet_fhStat _)) fun st => ?_
  refine adds_after (apart_refuseSpecial b _ _ _) fun _ => ?_
  refine adds_after (only_ite (only_bind ?_ fun _ => ?_) (only_pure _)) fun _ => ⟨rfl, fun _ _ => trivial⟩
  · exact apart_quiet (only_runOn _ _ _ (only_bind (quiet_fhCall _ _ _) fun _ => trivial))
  · exact apart_quiet (only_onlyIf _ (only_act trivial))

/-- `open` adds a descriptor after it has found room for it. -/
theorem adds_openFile (path : PathArg) (flagsArg : FlagsArg) (mode : Nat) :
    Adds (FsBroker.openFile b path flagsArg mode) found := by
  refine adds_bind (adds_apart (apart_quiet (quiet_openFlags _))) fun flags found => ?_
  refine adds_bind (adds_apart (apart_quiet (quiet_place b _ _ _ _))) fun p found => ?_
  split
  · exact adds_throw _
  · refine owes_bind_via (fun size after => size < maxFds → after = true)
      (owes_act_room fun size room => by simp [roomAfter, room]) fun size after room => ?_
    by_cases full : maxFds ≤ size
    · simp only [full, decide_true, refuseIf, if_true]
      exact adds_throw _
    · -- from here on there was room
      obtain rfl := room (not_le.mp full)
      refine adds_after (apart_quiet (only_refuseIf _ _)) fun _ => ?_
      refine adds_after (apart_quiet (quiet_lstatIf _ _)) fun before => ?_
      refine adds_after (apart_quiet (only_onlyIf _ (quiet_reserve _ _ _ _))) fun _ => ?_
      refine adds_after (only_catch (apart_fsOpen _ _ _) fun error => ?_) fun handle => adds_finishOpen b _ _ _ _
      exact only_bind (apart_quiet (only_onlyIf _ (only_act trivial))) fun _ => only_throw _

theorem adds_readFile (path : PathArg) (flags : FlagsArg) : Adds (readFile b path flags) found := by
  refine adds_bind (adds_openFile b _ _ _) fun fd found => ?_
  refine adds_bind (adds_apart (apart_act trivial)) fun entry found => ?_
  cases entry with
  | none => exact adds_throw _
  | some entry =>
      refine adds_apart (apart_ensure ?_ ?_)
      · exact apart_quiet (only_bind (quiet_readRest _ _ _ _) fun _ => only_pure _)
      · exact only_bind (apart_act trivial) fun _ => apart_fhClose _

theorem adds_writeFile (path : PathArg) (bytes : List UInt8) (flags : FlagsArg) (mode : Nat) :
    Adds (writeFile b path bytes flags mode) found := by
  refine adds_bind (adds_apart (apart_quiet (only_refuseIf _ _))) fun _ found => ?_
  refine adds_bind (adds_openFile b _ _ _) fun fd found => ?_
  refine adds_apart (apart_ensure ?_ ?_)
  · exact apart_quiet (only_bind (quiet_writeRest b _ _ _) fun _ => only_pure _)
  · exact only_bind (apart_close fd) fun _ => only_pure _

theorem apart_copy (excl : Bool) (source dest : Placed) : Only Apart (copy b excl source dest) := by
  have runs {α : Type} {placed : Placed} {other : Option Placed} {code : Code α} (only : Only Apart code) :
      Only Apart (runOn placed "copyfile" other code) := only_catch only fun _ => only_throw _
  refine only_bind (runs (only_bind (apart_quiet (only_hostOf _)) fun _ => apart_fsOpen _ _ _)) fun src => ?_
  refine apart_ensure (only_bind ?_ fun _ => only_pure _) (apart_fhClose _)
  refine only_bind (apart_quiet (quiet_fhStat _)) fun st => ?_
  refine only_bind (apart_quiet (only_refuseIf _ _)) fun _ => ?_
  refine only_bind (apart_closing (closing_verifyOpened b _ _ _ _)) fun _ => ?_
  refine only_bind (apart_quiet (only_hostOf _)) fun destHost => ?_
  refine only_bind (runs (apart_fsOpen _ _ _)) fun dst => ?_
  refine apart_ensure ?_ (apart_fhClose _)
  refine only_bind (apart_closing (closing_verifyOpened b _ _ _ _)) fun _ => ?_
  exact only_bind (apart_quiet (quiet_fhCall _ _ _)) fun _ => apart_quiet (quiet_copyPieces _ _ _)

theorem apart_copyFile (source dest : PathArg) (excl : Bool) : Only Apart (copyFile b source dest excl) := by
  refine only_bind (apart_quiet (quiet_place b _ _ _ _)) fun source => ?_
  refine only_bind (apart_quiet (quiet_place b _ _ _ _)) fun dest => only_ite ?_ (apart_copy b _ _ _)
  refine only_bind (apart_quiet (only_orNull (only_bind (only_hostOf _) fun _ => quiet_fsStat _))) fun src => ?_
  refine only_bind (apart_quiet (only_hostOf _)) fun destHost => ?_
  refine only_bind (apart_quiet (quiet_lstatOrNull _)) fun dst => ?_
  refine only_ite (only_bind (apart_quiet (quiet_reserve _ _ _ _)) fun _ => ?_) (apart_copy b _ _ _)
  refine only_bind (only_catch (apart_copy b _ _ _) fun _ => ?_) fun _ => ?_
  · exact only_bind (apart_act trivial) fun _ => only_throw _
  · exact only_bind (apart_act trivial) fun _ => only_pure _

/-- No operation adds a descriptor without having found room. -/
theorem adds_runOp (op : Op) : Adds (runOp b op) found := by
  cases op with
  | copyFile source dest excl => exact adds_apart (apart_copyFile b _ _ _)
  | «open» path flags mode => exact adds_bind (adds_openFile b _ _ _) fun _ _ => trivial
  | readFile path flags => exact adds_readFile b _ _
  | writeFile path bytes flags mode => exact adds_writeFile b _ _ _ _
  | close fd => exact adds_apart (apart_close fd)
  | _ => exact adds_apart (apart_quiet (quiet_runOp b rfl))

end Operations

/-! The table in a run. -/
section Runs

variable (bridge : Bridge) {machine : Machine} {checked : List Nat}

def acting : Phase → Bool
  | .running (.act _ _) => true
  | _ => false

/-- The operations that have found room, when this one acts. -/
def found (machine : Machine) (checked : List Nat) : Event → List Nat
  | .act n =>
      match machine.tasks n with
      | some ⟨_, _, .running (.act .fdCount _)⟩ =>
          if machine.world.fds.length < maxFds then n :: checked else checked
      | some ⟨_, _, .running (.act (.fdAdd _) _)⟩ => checked.filter fun other => other != n
      | _ => checked
  | _ => checked

/-- Those of them that go on. -/
def past (machine : Machine) (checked : List Nat) (event : Event) : List Nat :=
  (found machine checked event).filter fun n => ((step bridge machine event).tasks n).any fun task => acting task.phase

/-- An open that finds room finds it beside those that have found room and not used it yet. -/
def fits (machine : Machine) (checked : List Nat) : Event → Bool
  | .act n =>
      match machine.tasks n with
      | some ⟨_, _, .running (.act .fdCount _)⟩ =>
          decide (maxFds ≤ machine.world.fds.length) || decide (machine.world.fds.length + checked.length < maxFds)
      | _ => true
  | _ => true

def fitsAll : Machine → List Nat → List Event → Bool
  | _, _, [] => true
  | machine, checked, event :: rest =>
      fits machine checked event && fitsAll (step bridge machine event) (past bridge machine checked event) rest

/-- Descriptors are numbered from 3 on, each number is given once, and the table has numbers that were given. -/
structure Numbered (table : Table) : Prop where
  keys : table.owners.map Prod.fst = List.range' 3 table.owners.length
  next : table.nextFd = 3 + table.owners.length
  apart : table.fds.Nodup
  given : ∀ fd ∈ table.fds, fd < table.nextFd

theorem handle_numbered {world : World} (numbered : Numbered (view world)) (action : Act) :
    Numbered (view (handle action world).2) := by
  cases action with
  | openFile path flags mode =>
      show Numbered (view (world.open path flags mode).2)
      rcases view_open world path flags mode with ⟨-, isView⟩ | ⟨-, isView⟩
      · rw [isView]
        exact ⟨numbered.keys, numbered.next, numbered.apart, numbered.given⟩
      · rw [isView]
        exact numbered
  | closeFile handle => exact ⟨numbered.keys, numbered.next, numbered.apart, numbered.given⟩
  | fdAdd entry =>
      have isView : view (handle (.fdAdd entry) world).2 =
          { view world with
            fds := world.fds ++ [world.nextFd]
            owners := (view world).owners ++ [(world.nextFd, entry.handle)]
            nextFd := world.nextFd + 1 } := by
        simp [handle, view]
      have next : world.nextFd = 3 + (view world).owners.length := numbered.next
      rw [isView]
      refine ⟨?_, ?_, ?_, ?_⟩
      · have keys : ((view world).owners ++ [(world.nextFd, entry.handle)]).map Prod.fst =
            List.range' 3 (view world).owners.length ++ [3 + (view world).owners.length] := by
          rw [List.map_append, numbered.keys, next]
          rfl
        show ((view world).owners ++ [(world.nextFd, entry.handle)]).map Prod.fst = _
        rw [keys, List.length_append, List.length_singleton, List.range'_1_concat]
      · simp only [List.length_append, List.length_singleton]
        omega
      · have fresh : world.nextFd ∉ world.fds := fun member => absurd (numbered.given _ member) (Nat.lt_irrefl _)
        exact (List.perm_append_singleton _ _).nodup_iff.mpr (List.nodup_cons.mpr ⟨fresh, numbered.apart⟩)
      · intro fd member
        rcases List.mem_append.mp member with old | new
        · exact Nat.lt_succ_of_lt (numbered.given fd old)
        · rw [List.mem_singleton.mp new]
          exact Nat.lt_succ_self _
  | fdDrop fd =>
      refine ⟨numbered.keys, numbered.next, numbered.apart.filter _, fun other member => ?_⟩
      exact numbered.given other (List.mem_of_mem_filter member)
  | _ =>
      rw [view_quiet _ _ (by trivial)]
      exact numbered

/-- Only an operation that adds a descriptor makes the table longer. -/
theorem handle_shrinks {world : World} {action : Act} (apart : Apart action) :
    (view (handle action world).2).fds.length ≤ (view world).fds.length := by
  cases action with
  | fdAdd entry => exact apart.elim
  | openFile path flags mode =>
      show (view (world.open path flags mode).2).fds.length ≤ (view world).fds.length
      rcases view_open world path flags mode with ⟨-, isView⟩ | ⟨-, isView⟩
      · rw [isView]
      · rw [isView]
  | closeFile handle => exact le_rfl
  | fdDrop fd => exact List.length_filter_le _ _
  | _ => rw [view_quiet _ _ (by trivial)]

theorem fds_shrink {world : World} (action : Act) (apart : Apart action) :
    (handle action world).2.fds.length ≤ world.fds.length := handle_shrinks apart

/-- Only an action of an operation and the end of the worker change the table. -/
theorem step_table (machine : Machine) (event : Event) :
    view (step bridge machine event).world = view machine.world ∨
      (∃ action, view (step bridge machine event).world = view (handle action machine.world).2 ∧
        ((∀ n, event ≠ .act n) → Apart action)) ∨
        view (step bridge machine event).world = { view machine.world with fds := [], closed := true } := by
  cases event with
  | request op =>
      left
      show view (request bridge machine op).world = _
      rcases request_cases bridge machine op with rejected | ⟨-, lock, shift⟩
      · rw [rejected]
      · exact shift.view
  | resume n => exact Or.inl (shift_resume bridge machine n).view
  | pick => exact Or.inl (shift_pick machine).view
  | «begin» n =>
      left
      show view (begin bridge machine n).world = _
      unfold begin
      split <;> rfl
  | act n =>
      show view (act machine n).world = _ ∨ (∃ action, view (act machine n).world = _ ∧ _) ∨ _
      unfold act
      split
      · exact Or.inr (Or.inl ⟨_, rfl, fun still => absurd rfl (still n)⟩)
      · exact Or.inl rfl
  | finish n =>
      left
      show view (finish machine n).world = _
      unfold finish
      split
      · exact (shift_release _ _).view
      · exact (shift_release _ _).view
      · exact (shift_release _ _).view
      · rfl
  | close =>
      show view (BrokerClosing.close machine).world = _ ∨ _ ∨ view (BrokerClosing.close machine).world = _
      unfold BrokerClosing.close
      split
      · exact Or.inl rfl
      · exact Or.inr (Or.inr rfl)
  | closeFile handle =>
      simp only [step]
      split
      · exact Or.inr (Or.inl ⟨.closeFile handle, rfl, fun _ => trivial⟩)
      · exact Or.inl rfl

theorem step_numbered (event : Event) (numbered : Numbered (view machine.world)) :
    Numbered (view (step bridge machine event).world) := by
  rcases step_table bridge machine event with same | ⟨action, acted, -⟩ | closed
  · rw [same]
    exact numbered
  · rw [acted]
    exact handle_numbered numbered action
  · rw [closed]
    exact ⟨numbered.keys, numbered.next, List.nodup_nil, by simp⟩

/-- Who runs after an event that is no action ran before, or begins. -/
theorem step_running {event : Event} (still : ∀ n, event ≠ .act n) {n : Nat} {op : Op} {lock : Lock} {code : Code Value}
    (isTask : (step bridge machine event).tasks n = some ⟨op, lock, .running code⟩) :
    machine.tasks n = some ⟨op, lock, .running code⟩ ∨ code = runOp bridge.broker op := by
  have shifted {before after : Machine} (shift : Shift before after)
      (running : after.tasks n = some ⟨op, lock, .running code⟩) : before.tasks n = some ⟨op, lock, .running code⟩ :=
    shift.tasks.begun running trivial
  have left {rejected : List Nat} {other : Nat} {held : Lock}
      (running : (release { machine with tasks := Function.update machine.tasks other none, rejected } held).tasks n =
        some ⟨op, lock, .running code⟩) : machine.tasks n = some ⟨op, lock, .running code⟩ := by
    have before := shifted (shift_release _ held) running
    by_cases same : n = other
    · simp [same] at before
    · simpa [same] using before
  cases event with
  | request asked =>
      left
      rcases request_cases bridge machine asked with rejected | ⟨-, held, shift⟩
      · have same : (step bridge machine (.request asked)).tasks = machine.tasks := by
          show (request bridge machine asked).tasks = _
          rw [rejected]
        rwa [same] at isTask
      · have before := shifted shift isTask
        by_cases same : n = machine.next
        · simp [same] at before
        · simpa [same] using before
  | resume m => exact Or.inl (shifted (shift_resume bridge machine m) isTask)
  | pick => exact Or.inl (shifted (shift_pick machine) isTask)
  | «begin» m =>
      change (begin bridge machine m).tasks n = _ at isTask
      unfold begin at isTask
      split at isTask
      · rename_i began held isPicked
        by_cases same : n = m
        · subst same
          simp only [setPhase, isPicked, Function.update_self, Option.map_some, Option.some.injEq] at isTask
          cases isTask
          exact Or.inr rfl
        · exact Or.inl (by simpa [setPhase, same] using isTask)
      · exact Or.inl isTask
  | act m => exact absurd rfl (still m)
  | finish m =>
      change (finish machine m).tasks n = _ at isTask
      unfold finish at isTask
      split at isTask
      · exact Or.inl (left isTask)
      · exact Or.inl (left isTask)
      · exact Or.inl (left isTask)
      · exact Or.inl isTask
  | close =>
      change (BrokerClosing.close machine).tasks n = _ at isTask
      unfold BrokerClosing.close at isTask
      split at isTask
      · exact Or.inl isTask
      · exact Or.inl ((moves_forget machine).begun isTask trivial)
  | closeFile handle =>
      simp only [step] at isTask
      split at isTask
      · exact Or.inl isTask
      · exact Or.inl isTask

/-- Who has found room may add, and there is room for all who have. -/
structure Roomy (bridge : Bridge) (machine : Machine) (checked : List Nat) : Prop where
  adds : ∀ n op lock code, machine.tasks n = some ⟨op, lock, .running code⟩ → Adds code (decide (n ∈ checked))
  room : machine.world.fds.length + checked.length ≤ maxFds

theorem adds_any {code : Code Value} {found : Bool} (ended : acting (.running code) = false) : Adds code found := by
  cases code with
  | act action next => cases ended
  | done value => trivial
  | fail error => trivial

/-- Those that have ended are not among them any more. -/
theorem Roomy.pruned {event : Event} (bridge : Bridge)
    (adds : ∀ n op lock code, (step bridge machine event).tasks n = some ⟨op, lock, .running code⟩ →
      Adds code (decide (n ∈ found machine checked event)))
    (room : (step bridge machine event).world.fds.length + (found machine checked event).length ≤ maxFds) :
    Roomy bridge (step bridge machine event) (past bridge machine checked event) where
  adds := by
    intro n op lock code isTask
    by_cases acts : acting (.running code) = true
    · have same : n ∈ past bridge machine checked event ↔ n ∈ found machine checked event := by
        simp [past, isTask, acts]
      simp only [same]
      exact adds n op lock code isTask
    · exact adds_any (by simpa using acts)
  room := by
    have fewer : (past bridge machine checked event).length ≤ (found machine checked event).length :=
      List.length_filter_le _ _
    omega

/-- What an action does to the room, and to who has found some. -/
theorem found_acts (roomy : Roomy bridge machine checked) {n : Nat} {op : Op} {lock : Lock} {action : Act}
    {next : action.Answer → Code Value} (isTask : machine.tasks n = some ⟨op, lock, .running (.act action next)⟩)
    (meets : fits machine checked (.act n) = true) :
    decide (n ∈ found machine checked (.act n)) =
        roomAfter (decide (n ∈ checked)) action (handle action machine.world).1 ∧
      (∀ m, m ≠ n → (m ∈ found machine checked (.act n) ↔ m ∈ checked)) ∧
        (handle action machine.world).2.fds.length + (found machine checked (.act n)).length ≤ maxFds := by
  have room := roomy.room
  cases action with
  | fdCount =>
      have fit : maxFds ≤ machine.world.fds.length ∨ machine.world.fds.length + checked.length < maxFds := by
        simpa [fits, isTask] using meets
      by_cases free : machine.world.fds.length < maxFds
      · have isFound : found machine checked (.act n) = n :: checked := by simp [found, isTask, free]
        rw [isFound]
        refine ⟨by simp [roomAfter, handle, free], fun m differs => by simp [differs], ?_⟩
        show machine.world.fds.length + (checked.length + 1) ≤ maxFds
        omega
      · have isFound : found machine checked (.act n) = checked := by simp [found, isTask, free]
        rw [isFound]
        exact ⟨by simp [roomAfter, handle, free], fun _ _ => Iff.rfl, room⟩
  | fdAdd entry =>
      have isFound : found machine checked (.act n) = checked.filter fun other => other != n := by
        simp [found, isTask]
      have member : n ∈ checked := by
        have may := (roomy.adds n op lock _ isTask).1
        simpa [roomLedger, mayAdd] using may
      have fewer : (checked.filter fun other => other != n).length < checked.length :=
        List.length_filter_lt_length_iff_exists.mpr ⟨n, member, by simp⟩
      rw [isFound]
      refine ⟨by simp [roomAfter], fun m differs => by simp [differs], ?_⟩
      simp only [handle, List.length_append, List.length_singleton]
      omega
  | _ =>
      have isFound : found machine checked (.act n) = checked := by simp [found, isTask]
      rw [isFound]
      exact ⟨rfl, fun _ _ => Iff.rfl, (Nat.add_le_add_right (fds_shrink _ (by trivial)) _).trans room⟩

/-- An operation that is not running has no action. -/
theorem act_still (checked : List Nat) {n : Nat}
    (still : ∀ op lock action next, machine.tasks n ≠ some ⟨op, lock, .running (.act action next)⟩) :
    step bridge machine (.act n) = machine ∧ found machine checked (.act n) = checked := by
  constructor
  · show act machine n = machine
    unfold act
    split
    · rename_i isTask
      exact absurd isTask (still _ _ _ _)
    · rfl
  · unfold found
    dsimp only
    split
    · rename_i isTask
      exact absurd isTask (still _ _ _ _)
    · rename_i isTask
      exact absurd isTask (still _ _ _ _)
    · rfl

theorem act_roomy (roomy : Roomy bridge machine checked) (n : Nat) (meets : fits machine checked (.act n) = true) :
    Roomy bridge (step bridge machine (.act n)) (past bridge machine checked (.act n)) := by
  by_cases acts : ∃ op lock action next, machine.tasks n = some ⟨op, lock, .running (.act action next)⟩
  · obtain ⟨op, lock, action, next, isTask⟩ := acts
    obtain ⟨own, others, room⟩ := found_acts bridge roomy isTask meets
    have moved : step bridge machine (.act n) =
        { machine with
          world := (handle action machine.world).2
          tasks := setPhase machine.tasks n (.running (next (handle action machine.world).1)) } := by
      simp [step, act, isTask]
    apply Roomy.pruned
    · intro m op' lock' code isTask'
      rw [moved] at isTask'
      by_cases same : m = n
      · subst same
        simp only [setPhase, isTask, Function.update_self, Option.map_some, Option.some.injEq] at isTask'
        cases isTask'
        rw [own]
        exact (roomy.adds m op lock _ isTask).2 _ trivial
      · simp only [others m same]
        exact roomy.adds m op' lock' code (by simpa [setPhase, same] using isTask')
    · rw [moved]
      exact room
  · have idle : ∀ op lock action next, machine.tasks n ≠ some ⟨op, lock, .running (.act action next)⟩ :=
      fun op lock action next isTask => acts ⟨op, lock, action, next, isTask⟩
    obtain ⟨still, same⟩ := act_still bridge checked idle
    apply Roomy.pruned
    · rw [still, same]
      exact roomy.adds
    · rw [still, same]
      exact roomy.room

theorem step_roomy (roomy : Roomy bridge machine checked) {event : Event} (meets : fits machine checked event = true) :
    Roomy bridge (step bridge machine event) (past bridge machine checked event) := by
  by_cases acts : ∃ n, event = .act n
  · obtain ⟨n, rfl⟩ := acts
    exact act_roomy bridge roomy n meets
  · have still : ∀ n, event ≠ .act n := fun n same => acts ⟨n, same⟩
    have same : found machine checked event = checked := by
      cases event with
      | act n => exact absurd rfl (still n)
      | _ => rfl
    apply Roomy.pruned
    · intro n op lock code isTask
      rw [same]
      rcases step_running bridge still isTask with before | rfl
      · exact roomy.adds n op lock code before
      · exact adds_runOp bridge.broker op
    · rw [same]
      have shorter : (view (step bridge machine event).world).fds.length ≤ (view machine.world).fds.length := by
        rcases step_table bridge machine event with kept | ⟨action, acted, apart⟩ | closed
        · rw [kept]
        · rw [acted]
          exact handle_shrinks (apart still)
        · rw [closed]
          exact Nat.zero_le _
      exact (Nat.add_le_add_right shorter _).trans roomy.room

theorem run_roomy (events : List Event) (roomy : Roomy bridge machine checked)
    (meets : fitsAll bridge machine checked events = true) : (run bridge machine events).world.fds.length ≤ maxFds := by
  induction events generalizing machine checked with
  | nil => exact (Nat.le_add_right _ _).trans roomy.room
  | cons event rest ih =>
      rw [fitsAll, Bool.and_eq_true] at meets
      exact ih (step_roomy bridge roomy meets.1) meets.2

theorem run_numbered (events : List Event) (numbered : Numbered (view machine.world)) :
    Numbered (view (run bridge machine events).world) := by
  induction events generalizing machine with
  | nil => exact numbered
  | cons event rest ih => exact ih (step_numbered bridge event numbered)

theorem fits_all_before (before after : List Event) (meets : fitsAll bridge machine checked (before ++ after) = true) :
    fitsAll bridge machine checked before = true := by
  induction before generalizing machine checked with
  | nil => rfl
  | cons event rest ih =>
      rw [List.cons_append, fitsAll, Bool.and_eq_true] at meets
      rw [fitsAll, Bool.and_eq_true]
      exact ⟨meets.1, ih meets.2⟩

/-- Descriptors have numbers of their own in every run, and there are no more than 256 in a run in which each open
that finds room finds it beside those that have found room before and go on. -/
theorem table_bounded (host : Host) (quota : DiskQuota.Quota Int) (chances : Nat → Chance) (events : List Event) :
    (∀ before after, events = before ++ after →
      Numbered (view (run bridge (started host quota chances) before).world)) ∧
      (fitsAll bridge (started host quota chances) [] events = true →
        ∀ before after, events = before ++ after →
          (run bridge (started host quota chances) before).world.fds.length ≤ maxFds) := by
  constructor
  · intro before after _
    exact run_numbered bridge before ⟨rfl, rfl, List.nodup_nil, by simp [view, started, Machine.fresh, World.fresh]⟩
  · intro meets before after split
    have roomy : Roomy bridge (started host quota chances) [] := by
      refine ⟨fun n op lock code isTask => ?_, Nat.zero_le _⟩
      cases isTask
    exact run_roomy bridge before roomy (fits_all_before bridge before after (split ▸ meets))

end Runs

/-! Two opens that look at the table before either adds to it. -/
section Crowd

/-- A broker that does not check or count, of `--moduleSandbox off`. -/
def looseBridge : Bridge := ⟨{ fileBridge.broker with mode := .off, counting := false }, 4096⟩

def readOpen : Op := .open (absolute ["data", "f"]) (.text "r") 0o666

def dataRoot : Root := ⟨["data"], ["srv", "data"], ["srv", "data"], .rw, true, .data, .dir⟩

def sharedFile : Placed := .rooted ⟨["data", "f"], ["srv", "data", "f"], dataRoot, dataRoot, none⟩

/-- What `open` does when it has found room. -/
def goesOn : Code Value :=
  ((tryCatch (fsOpen ["srv", "data", "f"] {} 0o666) fun e => throw (rewrite e "open" sharedFile none)) >>=
    fun handle => finishOpen looseBridge.broker handle sharedFile {} false) >>= fun fd => pure (.fd fd)

theorem place_shared : FsBroker.place looseBridge.broker (absolute ["data", "f"]) .r "open" true = pure sharedFile := by
  have virtual : toVirtualPath looseBridge.broker.cwd (absolute ["data", "f"]) = some ["data", "f"] := by decide +kernel
  have root : FileNamespace.resolve looseBridge.broker.ns ["data", "f"] = .root ["data", "f"] ["srv", "data", "f"] dataRoot := by decide +kernel
  unfold FsBroker.place
  rw [virtual]
  dsimp only
  rw [root]
  rfl

theorem code_pure_bind {α β : Type} (x : α) (f : α → Code β) : ((pure x : Code α) >>= f) = f x := rfl

theorem readOpen_code : ∃ after, runOp looseBridge.broker readOpen = .act .fdCount after ∧
    ∀ size, size < maxFds → after size = goesOn := by
  show ∃ after, (FsBroker.openFile looseBridge.broker (absolute ["data", "f"]) (.text "r") 0o666 >>=
    fun fd => pure (Value.fd fd)) = .act .fdCount after ∧ _
  unfold FsBroker.openFile
  have flags : openFlags (.text "r") = pure ({} : OpenFlags) := rfl
  have want : (if writes ({} : OpenFlags) = true then Want.w else Want.r) = .r := rfl
  simp only [flags, code_pure_bind, want, place_shared]
  refine ⟨_, rfl, fun size room => ?_⟩
  have below : decide (maxFds ≤ size) = false := by simpa using room
  show ((refuseIf (decide (maxFds ≤ size)) _ >>= _ : Code Nat) >>= _ : Code Value) = _
  have uncounted : counts looseBridge.broker sharedFile = false := rfl
  have goes (error : NodeError) : refuseIf false error = pure () := rfl
  have unseen (host : HostTree.Path) : lstatIf false host = pure none := rfl
  have nothing (code : Code Unit) : onlyIf false code = pure () := rfl
  simp only [below, uncounted, Bool.false_and, goes, unseen, nothing, code_pure_bind]
  rfl

def entering (n : Nat) : List Event := [.request readOpen, .resume n, .pick, .begin n, .act n]

/-- An open up to its look at the table, alone with the scheduler. -/
theorem entering_runs (m : Machine) (started : m.world.closed = false) (noWriter : m.writer = false)
    (nobody : m.waiters = []) (empty : m.queue = []) (room : m.world.fds.length < maxFds) :
    run looseBridge m (entering m.next) =
      { m with
        readers := m.readers + 1
        next := m.next + 1
        tasks := Function.update m.tasks m.next (some ⟨readOpen, .shared, .running goesOn⟩)
        begun := m.next :: m.begun } := by
  have isLock : lockOf readOpen = some .shared := rfl
  obtain ⟨after, code, goes⟩ := readOpen_code
  obtain ⟨world, readers, writer, waiters, queue, tasks, next, closing, begun, rejected, atClose⟩ := m
  simp only at started noWriter nobody empty room ⊢
  subst noWriter nobody empty
  have cap : ¬ looseBridge.queueCap ≤ 0 := by decide
  simp [run, entering, step, request, started, isLock, acquire, pumpLock, grant, setPhase, resume, submit, cap, pick,
    begin, code, act, handle, goes _ room]

theorem goesOn_code : ∃ opened, goesOn = .act (.openFile ["srv", "data", "f"] {} 0o666) opened ∧
    ∀ handle, ∃ seen, opened (.ok handle) = .act (.onFile handle .stat) seen ∧
      ∀ location node inode links, seen (.ok (.seen location node inode links)) =
        .act (.fdAdd ⟨handle, sharedFile, 0, false, false⟩) fun fd => .done (.fd fd) := by
  refine ⟨_, rfl, fun handle => ⟨_, rfl, fun location node inode links => ?_⟩⟩
  show ((refuseSpecial looseBridge.broker handle sharedFile _ >>= _ : Code Nat) >>= _ : Code Value) = _
  have kept : ∀ st, refuseSpecial looseBridge.broker handle sharedFile st = pure () := by
    intro st
    unfold refuseSpecial onlyIf
    split <;> rfl
  rw [kept]
  rfl

/-- The host stays as it is, with the file. -/
structure Plain (world : World) : Prop where
  host : world.host = fileHost
  chances : world.chances = fileChances

theorem plain_outcome {world : World} (plain : Plain world) (call : Call) :
    world.outcome call = exec fileHost call ⟨none, none, "Ab3dE9", 1⟩ := by
  rw [World.outcome, World.chance, plain.host, plain.chances]
  rfl

/-- The file is opened and can be looked at. -/
theorem plain_opens {world : World} (plain : Plain world) :
    ∃ after, world.open ["srv", "data", "f"] {} 0o666 = (.ok world.nextHandle, after) ∧ Plain after ∧
      after.fds = world.fds ∧ after.closed = world.closed ∧ (after.file world.nextHandle).isSome = true := by
  have opened : exec fileHost (.openFile ["srv", "data", "f"] {} 0o666) ⟨none, none, "Ab3dE9", 1⟩ =
      ({ Effect.none with touched := [["srv", "data", "f"]] },
        .ok (.opened (openedAs ⟨5, .file⟩ ["srv", "data", "f"] {}))) := by rfl
  unfold World.open
  rw [plain_outcome plain, opened]
  refine ⟨_, rfl, ⟨?_, plain.chances⟩, rfl, rfl, ?_⟩
  · show world.host.apply _ = fileHost
    rw [plain.host]
    rfl
  · unfold World.file
    rw [List.lookup_append]
    simp

theorem plain_stat {world : World} (plain : Plain world) {handle : Nat} (there : (world.file handle).isSome = true) :
    ∃ location node inode links after, world.onFile handle .stat = (.ok (.seen location node inode links), after) ∧
      Plain after ∧ after.fds = world.fds ∧ after.closed = world.closed := by
  obtain ⟨file, found⟩ := Option.isSome_iff_exists.mp there
  unfold World.onFile
  rw [found]
  dsimp only
  rw [plain_outcome plain]
  refine ⟨_, _, _, _, _, rfl, ⟨?_, plain.chances⟩, rfl, rfl⟩
  show world.host.apply _ = fileHost
  rw [plain.host]
  rfl

/-- The host opens the file, it is looked at, and the descriptor is added. -/
def completing (n : Nat) : List Event := [.act n, .act n, .act n, .finish n]

structure Ready (m : Machine) (next size : Nat) : Prop where
  plain : Plain m.world
  started : m.world.closed = false
  writer : m.writer = false
  waiters : m.waiters = []
  queue : m.queue = []
  next : m.next = next
  size : m.world.fds.length = size

def Pending (m : Machine) (n : Nat) : Prop := m.tasks n = some ⟨readOpen, .shared, .running goesOn⟩

theorem entering_ready {m : Machine} {next size : Nat} (ready : Ready m next size) (room : size < maxFds) :
    Ready (run looseBridge m (entering next)) (next + 1) size ∧ Pending (run looseBridge m (entering next)) next ∧
      ∀ n, n ≠ next → Pending m n → Pending (run looseBridge m (entering next)) n := by
  obtain ⟨plain, started, writer, waiters, queue, rfl, rfl⟩ := ready
  rw [entering_runs m started writer waiters queue room]
  refine ⟨⟨plain, started, writer, waiters, queue, rfl, rfl⟩, by simp [Pending], fun n differs pending => ?_⟩
  simpa [Pending, differs] using pending

theorem completing_ready {m : Machine} {next size n : Nat} (ready : Ready m next size) (pending : Pending m n) :
    Ready (run looseBridge m (completing n)) next (size + 1) ∧
      ∀ other, other ≠ n → Pending m other → Pending (run looseBridge m (completing n)) other := by
  obtain ⟨world, readers, writer, waiters, queue, tasks, next, closing, begun, rejected, atClose⟩ := m
  obtain ⟨plain, started, isFree, nobody, empty, rfl, rfl⟩ := ready
  simp only at plain started isFree nobody empty ⊢
  subst isFree nobody empty
  obtain ⟨opened, code, sees⟩ := goesOn_code
  obtain ⟨first, isOpen, plain, fds, closed, there⟩ := plain_opens plain
  obtain ⟨seen, look, adds⟩ := sees world.nextHandle
  obtain ⟨location, node, inode, links, second, isSeen, plain, fds', closed'⟩ := plain_stat plain there
  have isTask : tasks n = some ⟨readOpen, .shared, .running goesOn⟩ := pending
  have ran : run looseBridge ⟨world, readers, false, [], [], tasks, next, closing, begun, rejected, atClose⟩ (completing n) =
      ⟨(handle (.fdAdd ⟨world.nextHandle, sharedFile, 0, false, false⟩) second).2, readers - 1, false, [], [],
        Function.update tasks n none, next, closing, begun, rejected, atClose⟩ := by
    simp [run, completing, step, act, finish, BrokerClosing.release, pumpLock, setPhase, isTask, code, handle, isOpen, look, isSeen, adds]
  rw [ran]
  refine ⟨⟨⟨plain.host, plain.chances⟩, ?_, rfl, rfl, rfl, rfl, ?_⟩, fun other differs pending => ?_⟩
  · exact (closed'.trans closed).trans started
  · show (second.fds ++ [second.nextFd]).length = world.fds.length + 1
    rw [List.length_append, fds', fds]
    rfl
  · simpa [Pending, differs] using pending

/-- One open after another. -/
def queueUp (count : Nat) : List Event := (List.range count).flatMap fun n => entering n ++ completing n

theorem queueUp_ready {count : Nat} (within : count ≤ maxFds) :
    Ready (run looseBridge fileStarted (queueUp count)) count count := by
  induction count with
  | zero => exact ⟨⟨rfl, rfl⟩, rfl, rfl, rfl, rfl, rfl, rfl⟩
  | succ count ih =>
      have before := ih (Nat.le_of_succ_le within)
      obtain ⟨entered, pending, -⟩ := entering_ready before within
      have after := (completing_ready entered pending).1
      simpa [queueUp, List.range_succ, run] using after

theorem two_opens_within_bound :
    fitsAll looseBridge fileStarted [] (entering 0 ++ entering 1 ++ completing 0 ++ completing 1) = true ∧
      (run looseBridge fileStarted (entering 0 ++ entering 1 ++ completing 0 ++ completing 1)).world.fds.length ≤
        maxFds := by
  refine ⟨by decide +kernel, ?_⟩
  exact (table_bounded looseBridge fileHost fileQuota fileChances
    (entering 0 ++ entering 1 ++ completing 0 ++ completing 1)).2 (by decide +kernel) _ [] (by simp)

/-- With 255 descriptors in the table, two files are opened side by side. -/
def crowdedRun : List Event := queueUp 255 ++ entering 255 ++ entering 256 ++ completing 255 ++ completing 256

theorem crowded_table : maxFds < (run looseBridge fileStarted crowdedRun).world.fds.length := by
  have alone : Ready (run looseBridge fileStarted (queueUp 255)) 255 255 := queueUp_ready (by decide)
  obtain ⟨first, pending, -⟩ := entering_ready alone (by decide)
  obtain ⟨second, waiting, keeps⟩ := entering_ready first (by decide)
  obtain ⟨third, stays⟩ := completing_ready second (keeps 255 (by decide) pending)
  have last := (completing_ready third (stays 256 (by decide) waiting)).1
  have split : run looseBridge fileStarted crowdedRun = run looseBridge (run looseBridge (run looseBridge
      (run looseBridge (run looseBridge fileStarted (queueUp 255)) (entering 255)) (entering 256))
      (completing 255)) (completing 256) := by
    simp only [crowdedRun, run, List.foldl_append]
  rw [split, last.size]
  decide

end Crowd

end Countinghouse.DescriptorTable
