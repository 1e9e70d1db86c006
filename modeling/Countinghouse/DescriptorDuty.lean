import Countinghouse.FsBroker
import Countinghouse.Obligations

/-!
What each operation of the file broker owes the host's descriptors, whatever the other
operations do meanwhile: the files it has opened and the descriptors it has put into the
table of its own accord are closed and taken out again when it ends. `open` leaves its
descriptor in the table.
-/

namespace Countinghouse.DescriptorDuty

open HostTree HostCalls FileNamespace BrokerWorld FsBroker Obligations
open Program (Prog)

/-- What one operation has in hand. -/
structure Duty where
  /-- Files opened, not yet in the table. -/
  fresh : List Nat
  /-- Files of descriptors it took out of the table. -/
  taken : List Nat
  /-- Descriptors it has to take out of the table. -/
  tabled : List Nat
  /-- The file of a descriptor. -/
  file : Nat → Option Nat

def Duty.none : Duty := ⟨[], [], [], fun _ => Option.none⟩

def Duty.clear (duty : Duty) : Prop := duty.fresh = [] ∧ duty.taken = [] ∧ duty.tabled = []

def without (xs : List Nat) (x : Nat) : List Nat := xs.filter fun other => other != x

/-- What is owed after an action; `stays` for an operation whose descriptor stays in the table. -/
def afterAct (stays : Bool) (duty : Duty) : (action : Act) → action.Answer → Duty
  | .openFile _ _ _, answer =>
      match answer with
      | .ok handle => { duty with fresh := handle :: duty.fresh }
      | .error _ => duty
  | .closeFile handle, _ => { duty with fresh := without duty.fresh handle, taken := without duty.taken handle }
  | .fdAdd entry, fd =>
      { duty with
        fresh := without duty.fresh entry.handle
        tabled := if stays then duty.tabled else fd :: duty.tabled
        file := Function.update duty.file fd (some entry.handle) }
  | .fdDrop fd, _ => { duty with taken := (duty.file fd).toList ++ duty.taken, tabled := without duty.tabled fd }
  | .fdOpen fd, live => if live then duty else { duty with tabled := without duty.tabled fd }
  | .entryOf fd, answer =>
      match answer with
      | some entry => { duty with file := Function.update duty.file fd (some entry.handle) }
      | Option.none => duty
  | _, _ => duty

/-- The answers an operation can get: a file that it has just opened answers, and a descriptor keeps its file. -/
def comesTo (opens : Bool) (duty : Duty) : (action : Act) → action.Answer → Prop
  | .onFile handle act, answer =>
      opens = true → handle ∈ duty.fresh →
        ∃ reply, answer = .ok reply ∧
          (act = .stat → ∃ location node inode links, reply = .seen location node inode links)
  | .entryOf fd, answer =>
      ∀ handle, duty.file fd = some handle → ∃ entry, answer = some entry ∧ entry.handle = handle
  | .fdAdd _, fd => duty.file fd = Option.none
  | _, _ => True

/-- Only a file it has just opened is put into the table, and a descriptor is taken out by who knows its file. -/
def mayDo (duty : Duty) : Act → Prop
  | .fdAdd entry => entry.handle ∈ duty.fresh
  | .fdDrop fd => (duty.file fd).isSome
  | _ => True

def ledger (opens stays : Bool) : Ledger Act Act.Answer Duty := ⟨mayDo, comesTo opens, afterAct stays⟩

/-- Operations that open a file and put it into the table. -/
def opens : Op → Bool
  | .open _ _ _ | .readFile _ _ | .writeFile _ _ _ _ => true
  | _ => false

def stays : Op → Bool
  | .open _ _ _ => true
  | _ => false

/-- Actions that neither open nor close a file nor change the table. -/
def Quiet : Act → Prop
  | .openFile _ _ _ | .closeFile _ | .fdAdd _ | .fdDrop _ => False
  | _ => True

/-- Actions that only look, apart from the realpath cache and the reports. -/
def Looks : Act → Prop
  | .now | .isClosed | .cached _ | .remember _ _ | .realpath _ | .lstat _ | .stat _ | .measure _ | .fileLink _
  | .fdOpen _ | .fdCount | .entryOf _ | .report _ _ => True
  | _ => False

theorem looks_quiet (action : Act) (looks : Looks action) : Quiet action := by
  cases action <;> trivial

/-- Nothing more is owed, and no file of a descriptor is forgotten. -/
structure Below (duty after : Duty) : Prop where
  fresh : after.fresh = duty.fresh
  taken : after.taken = duty.taken
  tabled : ∀ fd ∈ after.tabled, fd ∈ duty.tabled
  file : ∀ fd handle, duty.file fd = some handle → after.file fd = some handle

theorem below_refl (duty : Duty) : Below duty duty :=
  ⟨rfl, rfl, fun _ => id, fun _ _ => id⟩

theorem Below.trans {duty middle after : Duty} (first : Below duty middle) (second : Below middle after) :
    Below duty after where
  fresh := second.fresh.trans first.fresh
  taken := second.taken.trans first.taken
  tabled := fun fd member => first.tabled fd (second.tabled fd member)
  file := fun fd handle known => second.file fd handle (first.file fd handle known)

theorem without_sub {xs : List Nat} {x : Nat} : ∀ y ∈ without xs x, y ∈ xs :=
  fun _ member => (List.mem_filter.mp member).1

theorem Below.clear {duty after : Duty} (below : Below duty after) (clear : duty.clear) : after.clear := by
  obtain ⟨fresh, taken, tabled⟩ := clear
  refine ⟨below.fresh.trans fresh, below.taken.trans taken, ?_⟩
  rw [List.eq_nil_iff_forall_not_mem]
  intro fd member
  have there := below.tabled fd member
  simp [tabled] at there

section Quiet

variable {opens stays : Bool} {α : Type}

theorem quiet_below (duty : Duty) (action : Act) (quiet : Quiet action) :
    (ledger opens stays).may duty action ∧
      ∀ answer, (ledger opens stays).comes duty action answer →
        Below duty ((ledger opens stays).after duty action answer) := by
  cases action with
  | openFile => exact quiet.elim
  | closeFile => exact quiet.elim
  | fdAdd => exact quiet.elim
  | fdDrop => exact quiet.elim
  | fdOpen fd =>
      refine ⟨trivial, fun live _ => ?_⟩
      cases live with
      | true => exact below_refl duty
      | false => exact ⟨rfl, rfl, without_sub, fun _ _ => id⟩
  | entryOf fd =>
      refine ⟨trivial, fun answer comes => ?_⟩
      cases answer with
      | none => exact below_refl duty
      | some entry =>
          refine ⟨rfl, rfl, fun _ => id, fun other handle known => ?_⟩
          by_cases same : other = fd
          · subst same
            obtain ⟨found, isFound, keeps⟩ := comes handle known
            cases isFound
            simp [ledger, afterAct, keeps]
          · simpa [ledger, afterAct, same] using known
  | _ => exact ⟨trivial, fun _ _ => below_refl duty⟩

/-- A program of quiet actions owes no more than before. -/
theorem owes_quiet {code : Code α} (only : Only Quiet code) (duty : Duty) :
    Owes (ledger opens stays) (fun _ => Below duty) (fun _ => Below duty) code duty :=
  owes_only below_refl (fun first second => first.trans second) quiet_below only

end Quiet

/-! The parts of operations that are quiet. -/
section Parts

variable {α : Type} {kind : Act → Prop}

theorem only_act {action : Act} (known : kind action) : Only kind (FsBroker.perform action) :=
  ⟨known, fun _ => trivial⟩

theorem only_raised (syscall : String) (answer : Except Errno α) : Only kind (raised syscall answer) := by
  cases answer <;> trivial

theorem only_refuseIf (refused : Bool) (error : NodeError) : Only kind (refuseIf refused error) := by
  cases refused <;> trivial

theorem only_onlyIf (condition : Bool) {code : Code Unit} (only : Only kind code) :
    Only kind (onlyIf condition code) := by
  cases condition with
  | true => exact only
  | false => trivial

theorem only_orNull {code : Code α} (only : Only kind code) : Only kind (orNull code) :=
  only_catch (only_bind only fun _ => trivial) fun _ => trivial

theorem only_runOn (placed : Placed) (syscall : String) (dest : Option Placed) {code : Code α}
    (only : Only kind code) : Only kind (runOn placed syscall dest code) :=
  only_catch only fun _ => trivial

theorem only_hostOf (placed : Placed) : Only kind (hostOf placed) := by
  unfold hostOf
  split <;> trivial

/-- An action whose failure is raised. -/
theorem only_raisedAct {syscall : String} {answer : Code (Except Errno α)} (only : Only kind answer) :
    Only kind (answer >>= raised syscall) :=
  only_bind only (only_raised syscall)

theorem looks_fsRealpath (path : Path) : Only Looks (fsRealpath path) := only_raisedAct (only_act trivial)

theorem looks_fsLstat (path : Path) : Only Looks (fsLstat path) := only_raisedAct (only_act trivial)

theorem looks_fsStat (path : Path) : Only Looks (fsStat path) := only_raisedAct (only_act trivial)

theorem quiet_fsCall (syscall : String) (call : Call) : Only Quiet (fsCall syscall call) := only_raisedAct (only_act trivial)

theorem quiet_fhCall (syscall : String) (handle : Nat) (act : FdAct) : Only Quiet (fhCall syscall handle act) :=
  only_raisedAct (only_act trivial)

theorem quiet_fhStat (handle : Nat) : Only Quiet (fhStat handle) := by
  apply only_bind (quiet_fhCall _ handle _)
  intro reply
  split <;> trivial

theorem quiet_fhRead (handle : Nat) (position : Option Nat) (length : Nat) :
    Only Quiet (fhRead handle position length) := by
  apply only_bind (quiet_fhCall _ handle _)
  intro reply
  split <;> trivial

theorem quiet_fhReadAt (handle : Nat) (position : Position) (length : Nat) :
    Only Quiet (fhReadAt handle position length) :=
  only_bind (only_refuseIf _ _) fun _ => quiet_fhRead handle _ _

theorem quiet_fhWrite (handle : Nat) (position : Option Nat) (bytes : List UInt8) :
    Only Quiet (fhWrite handle position bytes) := by
  apply only_bind (quiet_fhCall _ handle _)
  intro reply
  split <;> trivial

theorem looks_lstatOrNull (path : Path) : Only Looks (lstatOrNull path) := only_orNull (looks_fsLstat path)

variable (b : Broker)

theorem looks_report (rule : Rule) (target : Path) : Only Looks (report b rule target) :=
  only_onlyIf _ (only_act trivial)

theorem looks_freshRealpath (dir : Path) (now : Nat) : Only Looks (freshRealpath dir now) :=
  only_bind (looks_fsRealpath dir) fun _ => only_bind (only_act trivial) fun _ => trivial

theorem looks_cachedRealpath (dir : Path) : Only Looks (cachedRealpath dir) := by
  refine only_bind (only_act (by trivial)) fun now => ?_
  refine only_bind (only_act (by trivial)) fun hit => ?_
  split
  · exact only_ite trivial (looks_freshRealpath dir now)
  · exact looks_freshRealpath dir now

theorem looks_viaParent (host : Path) (follow : Bool) : Only Looks (viaParent host follow) := by
  apply only_bind (only_orNull (looks_cachedRealpath _))
  intro parentReal
  split
  · trivial
  · apply only_bind (looks_lstatOrNull _)
    intro st
    split <;> trivial

theorem looks_viaName (host : Path) : Only Looks (viaName host) := by
  apply only_bind (only_orNull (looks_cachedRealpath _))
  intro parentReal
  split
  · trivial
  · refine only_bind (only_act (by trivial)) fun answer => ?_
    split <;> trivial

theorem looks_viaLeaf (virtual host : Path) (syscall : String) (follow : Bool) :
    Only Looks (viaLeaf virtual host syscall follow) := by
  apply only_catch
  · exact only_bind (looks_fsRealpath host) fun _ => only_bind (looks_fsStat _) fun _ => trivial
  · exact fun _ => only_ite (looks_viaParent host follow) trivial

theorem looks_checkHost (virtual host : Path) (root : Root) (syscall : String) (follow : Bool) :
    Only Looks (checkHost b virtual host root syscall follow) := by
  refine only_bind ?_ fun _ => only_pure _
  have rest : ∀ early : Option (Path × Ident), Only Looks (if early.isSome then pure early
      else if follow || decide (virtual = root.vroot) then viaLeaf virtual host syscall follow
      else viaParent host follow : Code (Option (Path × Ident))) := by
    intro early
    exact only_ite (only_pure _) (only_ite (looks_viaLeaf virtual host syscall follow) (looks_viaParent host follow))
  unfold realLocation
  dsimp only
  split
  · exact only_bind (looks_viaName host) rest
  · exact only_bind (only_pure _) rest

theorem looks_place (path : PathArg) (want : Want) (syscall : String) (follow : Bool) :
    Only Looks (place b path want syscall follow) := by
  unfold FsBroker.place
  split
  · trivial
  · split
    · exact only_ite trivial (only_ite trivial trivial)
    · exact only_bind (looks_report b _ _) fun _ => only_bind (only_refuseIf _ _) fun _ => trivial
    · refine only_ite (only_pure _) (only_bind (looks_checkHost b _ _ _ _ _) fun check => ?_)
      have rest (virtual : Path) (site : Site) : Only Looks (do
          onlyIf (decide (want = Want.w) && !site.root.writable) do
            report b Rule.readonly virtual
            refuseIf b.enforce (nodeError Errno.EROFS syscall virtual)
          pure (Placed.rooted site) : Code Placed) :=
        only_bind (only_onlyIf _ (only_bind (looks_report b _ _) fun _ => only_refuseIf _ _)) fun _ => only_pure _
      cases check with
      | escape =>
          refine only_bind (looks_report b _ _) fun _ => only_bind (only_refuseIf _ _) fun _ => ?_
          exact only_bind (only_pure _) (rest _)
      | held => exact only_bind (only_pure _) (rest _)

theorem quiet_place (path : PathArg) (want : Want) (syscall : String) (follow : Bool) :
    Only Quiet (place b path want syscall follow) :=
  only_mono looks_quiet (looks_place b path want syscall follow)

theorem quiet_report (rule : Rule) (target : Path) : Only Quiet (report b rule target) :=
  only_mono looks_quiet (looks_report b rule target)

theorem quiet_lstatOrNull (path : Path) : Only Quiet (lstatOrNull path) :=
  only_mono looks_quiet (looks_lstatOrNull path)

theorem quiet_fsRealpath (path : Path) : Only Quiet (fsRealpath path) :=
  only_mono looks_quiet (looks_fsRealpath path)

theorem quiet_fsStat (path : Path) : Only Quiet (fsStat path) := only_mono looks_quiet (looks_fsStat path)

theorem quiet_reserve (bytes entries : DiskQuota.Amount Int) (syscall : String) (placed : Placed) :
    Only Quiet (reserve bytes entries syscall placed) :=
  only_bind (only_act trivial) fun _ => only_refuseIf _ _

theorem quiet_counted (placed : Placed) (bytes entries : DiskQuota.Amount Int) (syscall : String) {code : Code α}
    (actual : DiskQuota.Amount Int × DiskQuota.Amount Int) (only : Only Quiet code) :
    Only Quiet (counted b placed bytes entries syscall code actual) := by
  apply only_ite _ only
  apply only_bind (quiet_reserve bytes entries syscall placed)
  intro _
  refine only_bind (only_catch only fun _ => only_bind (only_act trivial) fun _ => trivial) fun _ => ?_
  exact only_bind (only_act trivial) fun _ => trivial

theorem quiet_release (placed : Placed) (usage : Usage) : Only Quiet (release b placed usage) :=
  only_onlyIf _ (only_act trivial)

theorem quiet_removalUsage (host : Path) : Only Quiet (removalUsage host) := by
  apply only_bind (quiet_lstatOrNull host)
  intro st
  split
  · trivial
  · exact only_ite (only_bind (only_act trivial) fun _ => only_bind (only_raised _ _) fun _ => trivial) trivial

theorem quiet_measured (placed : Placed) (host : Path) : Only Quiet (measured b placed host) :=
  only_ite (quiet_removalUsage host) trivial

theorem quiet_measuredReplaced (dest : Placed) (sourceHost destHost : Path) :
    Only Quiet (measuredReplaced b dest sourceHost destHost) :=
  only_ite (only_bind (quiet_lstatOrNull _) fun _ => only_bind (quiet_lstatOrNull _) fun _ => trivial) trivial

theorem quiet_statIf (counted : Bool) (host : Path) : Only Quiet (statIf counted host) :=
  only_ite (only_orNull (quiet_fsStat host)) trivial

theorem quiet_lstatIf (counted : Bool) (host : Path) : Only Quiet (lstatIf counted host) :=
  only_ite (quiet_lstatOrNull host) trivial

theorem quiet_sizeIf (counted : Bool) (handle : Nat) : Only Quiet (sizeIf counted handle) :=
  only_ite (only_bind (quiet_fhStat handle) fun _ => trivial) trivial

theorem quiet_openFlags (flags : FlagsArg) : Only Quiet (openFlags flags) := by
  unfold openFlags
  split <;> trivial

theorem quiet_fdEntry (fd : Nat) (syscall : String) : Only Quiet (fdEntry fd syscall) := by
  refine only_bind (only_act (by trivial)) fun live => ?_
  apply only_bind (only_refuseIf _ _)
  intro _
  refine only_bind (only_act (by trivial)) fun entry => ?_
  split <;> trivial

end Parts

/-! Operations that open no file. -/
section Operations

variable (b : Broker)

theorem quiet_access (path : PathArg) : Only Quiet (access b path) := by
  apply only_bind (quiet_place b _ _ _ _)
  intro p
  split
  · trivial
  · exact only_runOn _ _ _ (only_bind (quiet_fsCall _ _) fun _ => trivial)

theorem quiet_exist (path : PathArg) : Only Quiet (exist b path) := by
  refine only_catch ?_ fun _ => only_pure _
  apply only_bind (quiet_place b _ _ _ _)
  intro p
  split
  · trivial
  · exact only_bind (quiet_fsCall _ _) fun _ => trivial

theorem quiet_statWith (syscall : String) (follow : Bool) (path : PathArg) :
    Only Quiet (statWith b syscall follow path) := by
  apply only_bind (quiet_place b _ _ _ _)
  intro p
  split
  · trivial
  · apply only_runOn
    apply only_bind (quiet_fsCall _ _)
    intro reply
    unfold statsOf
    split <;> trivial

theorem quiet_realpathOp (path : PathArg) : Only Quiet (realpathOp b path) := by
  apply only_bind (quiet_place b _ _ _ _)
  intro p
  split
  · trivial
  · apply only_runOn
    apply only_bind (quiet_fsCall _ _)
    intro reply
    split <;> trivial

theorem quiet_readlink (path : PathArg) : Only Quiet (readlink b path) := by
  apply only_bind (quiet_place b _ _ _ _)
  intro p
  apply only_runOn
  apply only_bind (only_hostOf p)
  intro host
  apply only_bind (quiet_fsCall _ _)
  intro reply
  split
  · refine only_ite ?_ (only_pure _)
    split <;> trivial
  · trivial

theorem quiet_readdir (path : PathArg) (recursive withFileTypes : Bool) :
    Only Quiet (readdir b path recursive withFileTypes) := by
  apply only_bind (quiet_place b _ _ _ _)
  intro p
  split
  · trivial
  · apply only_runOn
    apply only_bind (only_hostOf _)
    intro host
    apply only_bind (quiet_fsCall _ _)
    intro reply
    split
    · exact only_bind (only_refuseIf _ _) fun _ => trivial
    · trivial

theorem quiet_statfs (path : PathArg) : Only Quiet (statfs b path) := by
  apply only_bind (quiet_place b _ _ _ _)
  intro p
  exact only_runOn _ _ _ (only_bind (only_hostOf p) fun _ => only_bind (quiet_fsCall _ _) fun _ => trivial)

theorem quiet_missingAbove (stop : Path) (fuel : Nat) (host : Path) : Only Quiet (missingAbove stop fuel host) := by
  induction fuel generalizing host with
  | zero => trivial
  | succ fuel ih =>
      refine only_ite (only_pure _) ?_
      apply only_bind (quiet_lstatOrNull host)
      intro st
      split
      · trivial
      · exact only_bind (ih _) fun _ => trivial

theorem quiet_missingNames (recursive : Bool) (placed : Placed) : Only Quiet (missingNames b recursive placed) := by
  unfold missingNames
  split
  · exact only_ite (quiet_missingAbove _ _ _) trivial
  · trivial

theorem quiet_mkdir (path : PathArg) (recursive : Bool) (mode : Nat) : Only Quiet (mkdir b path recursive mode) := by
  apply only_bind (quiet_place b _ _ _ _)
  intro p
  apply only_bind (quiet_missingNames b recursive p)
  intro missing
  apply quiet_counted
  exact only_runOn _ _ _ (only_bind (only_hostOf p) fun _ => only_bind (quiet_fsCall _ _) fun _ => trivial)

theorem quiet_mkdtemp (path : PathArg) : Only Quiet (mkdtemp b path) := by
  apply only_bind (quiet_place b _ _ _ _)
  intro p
  apply quiet_counted
  exact only_runOn _ _ _ (only_bind (only_hostOf p) fun _ => only_bind (quiet_fsCall _ _) fun _ => trivial)

theorem quiet_rmdir (path : PathArg) : Only Quiet (rmdir b path) := by
  apply only_bind (quiet_place b _ _ _ _)
  intro p
  apply only_bind (only_refuseIf _ _)
  intro _
  refine only_bind (only_runOn _ _ _ (only_bind (only_hostOf p) fun _ => ?_)) fun _ => ?_
  · exact only_bind (quiet_fsCall _ _) fun _ => trivial
  · exact only_bind (quiet_release b _ _) fun _ => trivial

theorem quiet_removing (syscall : String) (call : Path → Call) (path : PathArg) :
    Only Quiet (removing b syscall call path) := by
  apply only_bind (quiet_place b _ _ _ _)
  intro p
  apply only_bind (only_refuseIf _ _)
  intro _
  apply only_bind (only_hostOf p)
  intro host
  apply only_bind (quiet_measured b p host)
  intro usage
  refine only_bind (only_runOn _ _ _ (only_bind (quiet_fsCall _ _) fun _ => trivial)) fun _ => ?_
  exact only_bind (quiet_release b _ _) fun _ => trivial

theorem quiet_rename (source dest : PathArg) : Only Quiet (rename b source dest) := by
  apply only_bind (quiet_place b _ _ _ _)
  intro source
  apply only_bind (quiet_place b _ _ _ _)
  intro dest
  apply only_bind (only_refuseIf _ _)
  intro _
  apply only_bind (only_refuseIf _ _)
  intro _
  apply only_bind (only_hostOf source)
  intro sourceHost
  apply only_bind (only_hostOf dest)
  intro destHost
  apply only_bind (quiet_measuredReplaced b dest sourceHost destHost)
  intro replaced
  refine only_bind (only_runOn _ _ _ (only_bind (quiet_fsCall _ _) fun _ => trivial)) fun _ => ?_
  exact only_bind (quiet_release b _ _) fun _ => trivial

theorem quiet_link (source dest : PathArg) : Only Quiet (link b source dest) := by
  apply only_bind (quiet_place b _ _ _ _)
  intro source
  apply only_bind (quiet_place b _ _ _ _)
  intro dest
  apply only_bind (only_refuseIf _ _)
  intro _
  apply quiet_counted
  apply only_runOn
  apply only_bind (only_hostOf source)
  intro sourceHost
  exact only_bind (only_hostOf dest) fun _ => only_bind (quiet_fsCall _ _) fun _ => trivial

theorem quiet_symlink (target : PathText) (path : PathArg) : Only Quiet (symlink b target path) := by
  apply only_bind (quiet_place b _ _ _ _)
  intro place
  apply only_bind (only_refuseIf _ _)
  intro _
  apply quiet_counted
  exact only_runOn _ _ _ (only_bind (only_hostOf place) fun _ => only_bind (quiet_fsCall _ _) fun _ => trivial)

theorem quiet_attrsWith (syscall : String) (follow : Bool) (edit : AttrEdit) (path : PathArg) :
    Only Quiet (attrsWith b syscall follow edit path) := by
  apply only_bind (quiet_place b _ _ _ _)
  intro p
  exact only_runOn _ _ _ (only_bind (only_hostOf p) fun _ => only_bind (quiet_fsCall _ _) fun _ => trivial)

theorem quiet_truncate (path : PathArg) (length : Length) : Only Quiet (truncate b path length) := by
  apply only_bind (quiet_place b _ _ _ _)
  intro p
  apply only_bind (only_hostOf p)
  intro host
  apply only_bind (quiet_statIf _ host)
  intro st
  apply quiet_counted
  exact only_runOn _ _ _ (only_bind (quiet_fsCall _ _) fun _ => trivial)

theorem quiet_readRest (handle : Nat) (p : Placed) (rounds : Nat) (bytes : List UInt8) :
    Only Quiet (readRest handle p rounds bytes) := by
  induction rounds generalizing bytes with
  | zero => trivial
  | succ rounds ih =>
      apply only_bind (only_runOn _ _ _ (quiet_fhRead _ _ _))
      intro piece
      refine only_ite (only_pure _) ?_
      exact only_bind (only_refuseIf _ _) fun _ => ih _

theorem quiet_write (fd : Nat) (bytes : List UInt8) (position : Position) : Only Quiet (write b fd bytes position) := by
  apply only_bind (quiet_fdEntry fd _)
  intro e
  apply only_bind (only_refuseIf _ _)
  intro _
  apply only_bind (quiet_sizeIf _ _)
  intro size
  apply only_bind (only_onlyIf _ (quiet_reserve _ _ _ _))
  intro _
  refine only_bind (only_catch (quiet_fhWrite _ _ _) fun _ => ?_) fun written => ?_
  · exact only_bind (only_onlyIf _ (only_act (by trivial))) fun _ => trivial
  · refine only_bind (only_onlyIf _ (only_act (by trivial))) fun _ => ?_
    exact only_bind (only_onlyIf _ (only_act (by trivial))) fun _ => trivial

theorem quiet_writeRest (fd rounds : Nat) (bytes : List UInt8) : Only Quiet (writeRest b fd rounds bytes) := by
  induction rounds generalizing bytes with
  | zero => trivial
  | succ rounds ih =>
      refine only_ite (only_pure _) ?_
      exact only_bind (quiet_write b fd bytes _) fun _ => only_ite trivial (ih _)

theorem quiet_read (fd : Nat) (length : DiskQuota.Amount Int) (position : Position) :
    Only Quiet (FsBroker.read fd length position) := by
  apply only_bind (quiet_fdEntry fd _)
  intro e
  split
  · trivial
  · apply only_bind (only_refuseIf _ _)
    intro _
    refine only_bind (only_runOn _ _ _ (quiet_fhReadAt _ _ _)) fun bytes => ?_
    exact only_bind (only_onlyIf _ (only_act trivial)) fun _ => trivial

theorem quiet_ftruncate (fd : Nat) (length : Length) : Only Quiet (ftruncate b fd length) := by
  apply only_bind (quiet_fdEntry fd _)
  intro e
  apply only_ite
  · apply only_bind (quiet_fhStat _)
    intro st
    apply only_bind (quiet_reserve _ _ _ _)
    intro _
    refine only_bind (only_catch (quiet_fhCall _ _ _) fun _ => ?_) fun _ => ?_
    · exact only_bind (only_act (by trivial)) fun _ => trivial
    · exact only_bind (only_act (by trivial)) fun _ => trivial
  · exact only_bind (quiet_fhCall _ _ _) fun _ => trivial

theorem quiet_onDescriptor (syscall : String) (act : FdAct) (fd : Nat) : Only Quiet (onDescriptor syscall act fd) :=
  only_bind (quiet_fdEntry fd _) fun _ => only_bind (quiet_fhCall _ _ _) fun _ => trivial

end Operations

/-! Operations on files. -/
section Files

variable {opens stays : Bool} {duty : Duty} (b : Broker)

theorem owes_act {action : Act} {ok : action.Answer → Duty → Prop} {bad : NodeError → Duty → Prop}
    (may : mayDo duty action)
    (holds : ∀ answer, comesTo opens duty action answer → ok answer (afterAct stays duty action answer)) :
    Owes (ledger opens stays) ok bad (FsBroker.perform action) duty := ⟨may, holds⟩

theorem owes_fhClose {ok : Unit → Duty → Prop} {bad : NodeError → Duty → Prop} (handle : Nat)
    (holds : ok () { duty with fresh := without duty.fresh handle, taken := without duty.taken handle }) :
    Owes (ledger opens stays) ok bad (fhClose handle) duty :=
  owes_act trivial fun _ _ => holds

/-- The stat of a file that was just opened answers. -/
theorem owes_fhStat {ok : Stats → Duty → Prop} {bad : NodeError → Duty → Prop} {handle : Nat}
    (own : handle ∈ duty.fresh) (holds : ∀ st, ok st duty) :
    Owes (ledger true stays) ok bad (fhStat handle) duty := by
  refine ⟨trivial, fun answer comes => ?_⟩
  obtain ⟨reply, isReply, shape⟩ := comes rfl own
  obtain ⟨location, node, inode, links, isSeen⟩ := shape rfl
  subst isReply isSeen
  exact holds _

theorem owes_fhCall {ok : Reply → Duty → Prop} {bad : NodeError → Duty → Prop} {syscall : String} {handle : Nat}
    {act : FdAct} (own : handle ∈ duty.fresh) (holds : ∀ reply, ok reply duty) :
    Owes (ledger true stays) ok bad (fhCall syscall handle act) duty := by
  refine ⟨trivial, fun answer comes => ?_⟩
  obtain ⟨reply, isReply, -⟩ := comes rfl own
  subst isReply
  exact holds _

/-- Who owes nothing owes nothing after a quiet program. -/
theorem owes_still {α : Type} {code : Code α} (only : Only Quiet code) (clear : duty.clear) :
    Owes (ledger opens stays) (fun _ => Duty.clear) (fun _ => Duty.clear) code duty :=
  owes_mono (owes_quiet only duty) (fun _ _ below => below.clear clear) (fun _ _ below => below.clear clear)

/-- The duty of an operation that has one file open and nothing else. -/
structure Holds (handle : Nat) (duty after : Duty) : Prop where
  fresh : after.fresh = [handle]
  taken : after.taken = []
  tabled : after.tabled = []
  file : ∀ fd known, duty.file fd = some known → after.file fd = some known

theorem Holds.below {handle : Nat} {duty middle after : Duty} (holds : Holds handle duty middle)
    (below : Below middle after) : Holds handle duty after where
  fresh := below.fresh.trans holds.fresh
  taken := below.taken.trans holds.taken
  tabled := by
    rw [List.eq_nil_iff_forall_not_mem]
    intro fd member
    have there := below.tabled fd member
    simp [holds.tabled] at there
  file := fun fd known there => below.file fd known (holds.file fd known there)

/-- Closing the one file leaves nothing. -/
theorem Holds.closed {handle : Nat} {duty after : Duty} (holds : Holds handle duty after) :
    Duty.clear { after with fresh := without after.fresh handle, taken := without after.taken handle } :=
  ⟨by simp [holds.fresh, without], by simp [holds.taken, without], holds.tabled⟩

theorem owes_sameOpened {handle : Nat} {start : Duty} {site : Site} {writes : Bool} {ident : Ident}
    (holds : Holds handle start duty) :
    Owes (ledger true stays) (fun _ => Holds handle start) (fun _ => Duty.clear)
      (sameOpened b handle site writes ident) duty := by
  have inRoot (ok : Bool) {duty : Duty} (holds : Holds handle start duty) :
      Owes (ledger true stays) (fun _ => Holds handle start) (fun _ => Duty.clear)
        (sameOpened.inRoot b handle site writes ok) duty := by
    unfold sameOpened.inRoot
    split
    · refine owes_bind (owes_act trivial fun link _ => holds) fun link after kept => ?_
      split
      · exact owes_pure kept
      · split <;> exact owes_pure kept
    · exact owes_pure holds
  cases ident with
  | parent real =>
      -- the real path of the directory may fail, which counts as another directory
      have looked : Owes (ledger true stays) (fun _ => Holds handle start) (fun _ => Duty.clear)
          (orNull (fsRealpath (dirname site.host))) duty := by
        refine owes_catch (owes_bind ((owes_quiet (quiet_fsRealpath _) duty)) ?_) ?_
        · exact fun _ _ below => owes_pure (holds.below below)
        · exact fun _ _ below => owes_pure (holds.below below)
      exact owes_bind looked fun parentReal after kept => inRoot _ kept
  | node ino =>
      refine owes_bind (owes_fhStat (by simp [holds.fresh]) fun _ => holds) fun st after kept => ?_
      exact inRoot _ kept

theorem owes_verifyOpened {handle : Nat} {start : Duty} {placed : Placed} {syscall : String} {writes : Bool}
    (holds : Holds handle start duty) :
    Owes (ledger true stays) (fun _ => Holds handle start) (fun _ => Duty.clear)
      (verifyOpened b handle placed syscall writes) duty := by
  unfold verifyOpened
  split
  · split
    · split
      · refine owes_bind (owes_sameOpened b holds) fun ok after kept => ?_
        cases ok with
        | true => exact owes_pure kept
        | false =>
            have closed : Owes (ledger true stays) (fun _ => Duty.clear) (fun _ => Duty.clear) (fhClose handle) after :=
              owes_fhClose handle kept.closed
            refine owes_bind closed fun _ closed clear => ?_
            exact owes_bind (owes_still (quiet_report b _ _) clear) fun _ _ clear => owes_throw clear
      · exact owes_pure holds
    · exact owes_pure holds
  · exact owes_pure holds

/-- A descriptor of the operation's own is in the table, unless it stays there. -/
structure Added (stays : Bool) (fd handle : Nat) (after : Duty) : Prop where
  fresh : after.fresh = []
  taken : after.taken = []
  tabled : ∀ other ∈ after.tabled, other = fd
  kept : stays = true → after.tabled = []
  file : after.file fd = some handle

theorem Added.below {fd handle : Nat} {middle after : Duty} (added : Added stays fd handle middle)
    (below : Below middle after) : Added stays fd handle after where
  fresh := below.fresh.trans added.fresh
  taken := below.taken.trans added.taken
  tabled := fun other member => added.tabled other (below.tabled other member)
  kept := by
    intro isKept
    rw [List.eq_nil_iff_forall_not_mem]
    intro other member
    have there := below.tabled other member
    simp [added.kept isKept] at there
  file := below.file fd handle added.file

theorem owes_report {ok : Unit → Duty → Prop} {bad : NodeError → Duty → Prop} (rule : Rule) (target : Path)
    (holds : ok () duty) : Owes (ledger opens stays) ok bad (report b rule target) duty := by
  unfold report onlyIf
  split
  · exact owes_act trivial fun _ _ => holds
  · exact owes_pure holds

theorem owes_refuseSpecial {handle : Nat} {start : Duty} {placed : Placed} {st : Stats}
    (holds : Holds handle start duty) :
    Owes (ledger opens stays) (fun _ => Holds handle start) (fun _ => Duty.clear)
      (refuseSpecial b handle placed st) duty := by
  unfold refuseSpecial onlyIf
  split
  · refine owes_bind_via (fun _ => Holds handle start) (owes_report b _ _ holds) fun _ after holds => ?_
    split
    · exact owes_bind (owes_fhClose handle holds.closed) fun _ _ clear => owes_throw clear
    · exact owes_pure holds
  · exact owes_pure holds

theorem owes_truncateOpened {handle : Nat} {start : Duty} {placed : Placed} {flags : OpenFlags} {counted : Bool}
    {st : Stats} (holds : Holds handle start duty) :
    Owes (ledger true stays) (fun _ => Holds handle start) (fun _ => Duty.clear)
      (truncateOpened handle placed flags counted st) duty := by
  unfold truncateOpened onlyIf
  split
  · have cut : Owes (ledger true stays) (fun _ => Holds handle start) (fun _ => Duty.clear)
        (runOn placed "open" none do
          let _ ← fhCall "ftruncate" handle (.truncate (some 0))) duty := by
      -- the truncation of a file just opened does not fail, so nothing is caught
      have uncaught : Owes (ledger true stays) (fun _ => Holds handle start) (fun (_ : NodeError) _ => False)
          (do let _ ← fhCall "ftruncate" handle (.truncate (some 0))) duty :=
        owes_bind (owes_fhCall (by simp [holds.fresh]) fun _ => holds) fun _ _ holds => owes_pure holds
      exact owes_catch uncaught fun _ _ never => never.elim
    refine owes_bind cut fun _ after holds => ?_
    split
    · exact owes_act trivial fun _ _ => holds
    · exact owes_pure holds
  · exact owes_pure holds

theorem owes_finishOpen {handle : Nat} {start : Duty} {placed : Placed} {flags : OpenFlags} {counted : Bool}
    (holds : Holds handle start duty) :
    Owes (ledger true stays) (fun fd => Added stays fd handle) (fun _ => Duty.clear)
      (finishOpen b handle placed flags counted) duty := by
  refine owes_bind (owes_verifyOpened b holds) fun _ after holds => ?_
  refine owes_bind (owes_fhStat (by simp [holds.fresh]) fun _ => holds) fun st after holds => ?_
  refine owes_bind (owes_refuseSpecial b holds) fun _ after holds => ?_
  refine owes_bind (owes_truncateOpened holds) fun _ after holds => ?_
  refine owes_act (by simp [mayDo, holds.fresh]) fun fd _ => ?_
  constructor
  · simp [afterAct, holds.fresh, without]
  · exact holds.taken
  · cases stays <;> simp [afterAct, holds.tabled]
  · rintro rfl
    exact holds.tabled
  · simp [afterAct]

/-- An open ends with its file in the table or with nothing open. -/
theorem owes_openFile {path : PathArg} {flags : FlagsArg} {mode : Nat} (clear : duty.clear) :
    Owes (ledger true stays) (fun fd after => ∃ handle, Added stays fd handle after) (fun _ => Duty.clear)
      (openFile b path flags mode) duty := by
  refine owes_bind (owes_still (quiet_openFlags flags) clear) fun flags after clear => ?_
  refine owes_bind (owes_still (quiet_place b _ _ _ _) clear) fun p after clear => ?_
  split
  · exact owes_throw clear
  · refine owes_bind (owes_still (only_act (by trivial)) clear) fun size after clear => ?_
    refine owes_bind (owes_still (only_refuseIf _ _) clear) fun _ after clear => ?_
    refine owes_bind (owes_still (quiet_lstatIf _ _) clear) fun before after clear => ?_
    refine owes_bind (owes_still (only_onlyIf _ (quiet_reserve _ _ _ _)) clear) fun _ after clear => ?_
    have opened (host : Path) : Owes (ledger true stays) (fun handle => Holds handle after) (fun _ => Duty.clear)
        (fsOpen host { flags with trunc := false } mode) after := by
      refine owes_bind_via (fun (answer : Except Errno Nat) final =>
          answer.casesOn (fun _ => Duty.clear final) fun handle => Holds handle after final)
        (owes_act trivial fun answer _ => ?_) fun answer final holds => ?_
      · cases answer with
        | ok handle => exact ⟨by simp [afterAct, clear.1], clear.2.1, clear.2.2, fun _ _ => id⟩
        | error code => exact clear
      · cases answer with
        | ok handle => exact owes_pure holds
        | error code => exact owes_throw holds
    refine owes_bind (owes_catch (opened _) fun error after clear => ?_) fun handle after holds => ?_
    · refine owes_bind (owes_still (only_onlyIf _ (only_act (by trivial))) clear) fun _ _ clear => ?_
      exact owes_throw clear
    · exact owes_mono (owes_finishOpen b holds) (fun fd _ added => ⟨handle, added⟩) fun _ _ => id

theorem owes_openOp {path : PathArg} {flags : FlagsArg} {mode : Nat} (clear : duty.clear) :
    Owes (ledger true true) (fun _ => Duty.clear) (fun _ => Duty.clear) (openOp b path flags mode) duty := by
  refine owes_bind (owes_openFile b clear) ?_
  rintro fd after ⟨handle, added⟩
  exact owes_pure ⟨added.fresh, added.taken, added.kept rfl⟩

/-- Taking the descriptor out and closing its file leaves nothing. -/
theorem Added.closed {fd handle : Nat} {after : Duty} (added : Added stays fd handle after) :
    Duty.clear (afterAct stays (afterAct stays after (.fdDrop fd) ()) (.closeFile handle) ()) := by
  refine ⟨by simp [afterAct, added.fresh, without], ?_, ?_⟩
  · simp [afterAct, added.taken, added.file, without]
  · rw [List.eq_nil_iff_forall_not_mem]
    intro other member
    obtain ⟨there, differs⟩ := List.mem_filter.mp member
    simp [added.tabled other there] at differs

theorem owes_readFile {path : PathArg} {flags : FlagsArg} (clear : duty.clear) :
    Owes (ledger true false) (fun _ => Duty.clear) (fun _ => Duty.clear) (readFile b path flags) duty := by
  refine owes_bind (owes_openFile b clear) ?_
  rintro fd after ⟨handle, added⟩
  refine owes_bind_via (fun answer final => ∃ entry, answer = some entry ∧ entry.handle = handle ∧
    Added false fd handle final) (owes_act trivial fun answer comes => ?_) ?_
  · obtain ⟨entry, isEntry, isHandle⟩ := comes handle added.file
    subst isEntry isHandle
    refine ⟨entry, rfl, rfl, ?_⟩
    exact ⟨added.fresh, added.taken, added.tabled, added.kept, by simp [afterAct]⟩
  · rintro answer final ⟨entry, isEntry, isHandle, added⟩
    subst isEntry isHandle
    have last {duty : Duty} (added : Added false fd entry.handle duty) :
        Owes (ledger true false) (fun _ => Duty.clear) (fun _ => Duty.clear) (do
          fdDelete fd
          fhClose entry.handle) duty := by
      refine owes_bind_via (fun _ final => final = afterAct false duty (.fdDrop fd) ())
        (owes_act ?_ fun _ _ => rfl) fun _ final isFinal => ?_
      · simp [mayDo, added.file]
      · subst isFinal
        exact owes_act trivial fun _ _ => added.closed
    refine owes_ensure (owes_bind (owes_quiet (quiet_readRest _ _ _ _) final) fun bytes after below => ?_)
      (fun value after added => last added) (fun error after below => last (added.below below))
    exact owes_pure (added.below below)

/-- `close` leaves nothing of its descriptor: it closes the file, or finds the descriptor gone. -/
theorem owes_close {fd : Nat} (fresh : duty.fresh = []) (taken : duty.taken = [])
    (tabled : ∀ other ∈ duty.tabled, other = fd) (known : duty.tabled = [] ∨ ∃ handle, duty.file fd = some handle) :
    Owes (ledger opens stays) (fun _ => Duty.clear) (fun _ => Duty.clear) (close fd) duty := by
  have gone : without duty.tabled fd = [] := by
    rw [List.eq_nil_iff_forall_not_mem]
    intro other member
    obtain ⟨there, differs⟩ := List.mem_filter.mp member
    simp [tabled other there] at differs
  have entry : Owes (ledger opens stays)
      (fun entry final => final = { duty with file := Function.update duty.file fd (some entry.handle) })
      (fun _ => Duty.clear) (fdEntry fd "close") duty := by
    refine owes_bind_via (fun live final => final = if live then duty else { duty with tabled := [] })
      (owes_act trivial fun live _ => by cases live <;> simp [afterAct, gone]) fun live final isFinal => ?_
    subst isFinal
    cases live with
    | false => exact owes_throw ⟨fresh, taken, rfl⟩
    | true =>
        refine owes_bind (owes_pure rfl) fun _ final (isFinal : final = duty) => ?_
        subst isFinal
        refine owes_bind_via (fun answer after => answer.elim (Duty.clear after) fun entry =>
            after = { final with file := Function.update final.file fd (some entry.handle) })
          (owes_act trivial fun answer comes => ?_) fun answer after holds => ?_
        · cases answer with
          | some entry => rfl
          | none =>
              refine ⟨fresh, taken, known.resolve_right ?_⟩
              rintro ⟨handle, isKnown⟩
              obtain ⟨entry, isEntry, -⟩ := comes handle isKnown
              cases isEntry
        · cases answer with
          | some entry => exact owes_pure holds
          | none => exact owes_throw holds
  refine owes_bind entry fun entry final isFinal => ?_
  subst isFinal
  refine owes_bind_via (fun _ after => after.fresh = [] ∧ after.taken = [entry.handle] ∧ after.tabled = [])
    (owes_act (by simp [mayDo]) fun _ _ => by simp [afterAct, fresh, taken, gone]) ?_
  rintro _ after ⟨fresh, taken, tabled⟩
  refine owes_bind_via (fun _ => Duty.clear) (owes_fhClose _ ?_) fun _ _ clear => owes_pure clear
  exact ⟨by simp [fresh, without], by simp [taken, without], tabled⟩

theorem owes_writeFile {path : PathArg} {bytes : List UInt8} {flags : FlagsArg} {mode : Nat} (clear : duty.clear) :
    Owes (ledger true false) (fun _ => Duty.clear) (fun _ => Duty.clear) (writeFile b path bytes flags mode)
      duty := by
  refine owes_bind (owes_still (only_refuseIf _ _) clear) fun _ after clear => ?_
  refine owes_bind (owes_openFile b clear) ?_
  rintro fd after ⟨handle, added⟩
  have last {duty : Duty} (added : Added false fd handle duty) :
      Owes (ledger true false) (fun _ => Duty.clear) (fun _ => Duty.clear) (do
        let _ ← close fd
        pure ()) duty := by
    refine owes_bind (owes_close added.fresh added.taken added.tabled (.inr ⟨handle, added.file⟩)) ?_
    exact fun _ _ clear => owes_pure clear
  refine owes_ensure (owes_bind (owes_quiet (quiet_writeRest b _ _ _) after) fun _ after below => ?_)
    (fun value after added => last added) (fun error after below => last (added.below below))
  exact owes_pure (added.below below)

end Files

/-! Copying opens files that never come into the table. -/
section Copying

variable {stays : Bool} {duty : Duty} (b : Broker)

/-- Actions that open no file and leave the table alone. -/
def Closing : Act → Prop
  | .openFile _ _ _ | .fdAdd _ | .fdDrop _ => False
  | _ => True

theorem closing_of_quiet (action : Act) (quiet : Quiet action) : Closing action := by
  cases action with
  | openFile => exact quiet.elim
  | fdAdd => exact quiet.elim
  | fdDrop => exact quiet.elim
  | _ => trivial

/-- No file and no descriptor more than before. -/
structure Within (duty after : Duty) : Prop where
  fresh : ∀ handle ∈ after.fresh, handle ∈ duty.fresh
  taken : ∀ handle ∈ after.taken, handle ∈ duty.taken
  tabled : ∀ fd ∈ after.tabled, fd ∈ duty.tabled

theorem within_refl (duty : Duty) : Within duty duty := ⟨fun _ => id, fun _ => id, fun _ => id⟩

theorem Within.trans {duty middle after : Duty} (first : Within duty middle) (second : Within middle after) :
    Within duty after where
  fresh := fun handle member => first.fresh handle (second.fresh handle member)
  taken := fun handle member => first.taken handle (second.taken handle member)
  tabled := fun fd member => first.tabled fd (second.tabled fd member)

theorem closing_within (opens : Bool) (duty : Duty) (action : Act) (closing : Closing action) :
    (ledger opens stays).may duty action ∧
      ∀ answer, (ledger opens stays).comes duty action answer →
        Within duty ((ledger opens stays).after duty action answer) := by
  cases action with
  | openFile => exact closing.elim
  | fdAdd => exact closing.elim
  | fdDrop => exact closing.elim
  | closeFile handle => exact ⟨trivial, fun _ _ => ⟨without_sub, without_sub, fun _ => id⟩⟩
  | fdOpen fd =>
      refine ⟨trivial, fun live _ => ?_⟩
      cases live with
      | true => exact within_refl duty
      | false => exact ⟨fun _ => id, fun _ => id, without_sub⟩
  | entryOf fd =>
      refine ⟨trivial, fun answer _ => ?_⟩
      cases answer with
      | none => exact within_refl duty
      | some entry => exact ⟨fun _ => id, fun _ => id, fun _ => id⟩
  | _ => exact ⟨trivial, fun _ _ => within_refl duty⟩

/-- Nothing but the files listed is owed. -/
structure OwesOnly (handles : List Nat) (duty : Duty) : Prop where
  fresh : ∀ handle ∈ duty.fresh, handle ∈ handles
  taken : duty.taken = []
  tabled : duty.tabled = []

theorem OwesOnly.within {handles : List Nat} {duty after : Duty} (owes : OwesOnly handles duty)
    (within : Within duty after) : OwesOnly handles after where
  fresh := fun handle member => owes.fresh handle (within.fresh handle member)
  taken := by
    rw [List.eq_nil_iff_forall_not_mem]
    intro handle member
    have there := within.taken handle member
    simp [owes.taken] at there
  tabled := by
    rw [List.eq_nil_iff_forall_not_mem]
    intro fd member
    have there := within.tabled fd member
    simp [owes.tabled] at there

theorem OwesOnly.clear {duty : Duty} (owes : OwesOnly [] duty) : duty.clear := by
  refine ⟨?_, owes.taken, owes.tabled⟩
  rw [List.eq_nil_iff_forall_not_mem]
  intro handle member
  exact absurd (owes.fresh handle member) List.not_mem_nil

theorem owesOnly_nil (clear : duty.clear) : OwesOnly [] duty :=
  ⟨by simp [clear.1], clear.2.1, clear.2.2⟩

theorem owes_closing {α : Type} {handles : List Nat} {code : Code α} (only : Only Closing code)
    (owes : OwesOnly handles duty) :
    Owes (ledger false stays) (fun _ => OwesOnly handles) (fun _ => OwesOnly handles) code duty :=
  owes_mono (owes_only within_refl (fun first second => first.trans second) (closing_within false) only)
    (fun _ _ within => owes.within within) (fun _ _ within => owes.within within)

/-- `try … finally close` around the use of one more file. -/
theorem owes_closed {α : Type} {handle : Nat} {handles : List Nat} {code : Code α}
    (body : Owes (ledger false stays) (fun _ => OwesOnly (handle :: handles)) (fun _ => OwesOnly (handle :: handles))
      code duty) :
    Owes (ledger false stays) (fun _ => OwesOnly handles) (fun _ => OwesOnly handles)
      (code.ensure (fhClose handle)) duty := by
  have last {duty : Duty} (owes : OwesOnly (handle :: handles) duty) :
      Owes (ledger false stays) (fun _ => OwesOnly handles) (fun _ => OwesOnly handles) (fhClose handle) duty := by
    refine owes_act trivial fun _ _ => ⟨?_, by simp [afterAct, owes.taken, without], owes.tabled⟩
    intro other member
    obtain ⟨there, differs⟩ := List.mem_filter.mp member
    exact (List.mem_cons.mp (owes.fresh other there)).resolve_left (by simpa using differs)
  exact owes_ensure body (fun _ _ owes => last owes) fun _ _ owes => last owes

theorem owes_fsOpen {handles : List Nat} {path : Path} {flags : OpenFlags} {mode : Nat}
    (owes : OwesOnly handles duty) :
    Owes (ledger false stays) (fun handle => OwesOnly (handle :: handles)) (fun _ => OwesOnly handles)
      (fsOpen path flags mode) duty := by
  refine owes_bind_via (fun (answer : Except Errno Nat) final =>
      answer.casesOn (fun _ => OwesOnly handles final) fun handle => OwesOnly (handle :: handles) final)
    (owes_act trivial fun answer _ => ?_) fun answer final holds => ?_
  · cases answer with
    | error code => exact owes
    | ok handle =>
        refine ⟨fun other member => ?_, owes.taken, owes.tabled⟩
        rcases List.mem_cons.mp member with isNew | there
        · exact isNew ▸ List.mem_cons_self
        · exact List.mem_cons_of_mem handle (owes.fresh other there)
  · cases answer with
    | ok handle => exact owes_pure holds
    | error code => exact owes_throw holds

theorem quiet_writeAll (handle rounds : Nat) (bytes : List UInt8) : Only Quiet (writeAll handle rounds bytes) := by
  induction rounds generalizing bytes with
  | zero => trivial
  | succ rounds ih => exact only_ite trivial (only_bind (quiet_fhWrite _ _ _) fun _ => ih _)

theorem quiet_copyPieces (src dst rounds : Nat) : Only Quiet (copyPieces src dst rounds) := by
  induction rounds with
  | zero => trivial
  | succ rounds ih =>
      refine only_bind (quiet_fhRead _ _ _) fun piece => ?_
      exact only_ite trivial (only_bind (quiet_writeAll _ _ _) fun _ => ih)

theorem closing_verifyOpened (handle : Nat) (placed : Placed) (syscall : String) (writes : Bool) :
    Only Closing (verifyOpened b handle placed syscall writes) := by
  have inRoot (site : Site) (ok : Bool) : Only Closing (sameOpened.inRoot b handle site writes ok) := by
    unfold sameOpened.inRoot
    split
    · refine only_bind (only_mono closing_of_quiet (only_act (by trivial))) fun link => ?_
      split
      · trivial
      · split <;> trivial
    · trivial
  have same (site : Site) (ident : Ident) : Only Closing (sameOpened b handle site writes ident) := by
    cases ident with
    | parent real =>
        exact only_bind (only_mono closing_of_quiet (only_orNull (quiet_fsRealpath _))) fun _ => inRoot site _
    | node ino => exact only_bind (only_mono closing_of_quiet (quiet_fhStat _)) fun _ => inRoot site _
  unfold verifyOpened
  split
  · split
    · split
      · have closed : Only Closing (fhClose handle) := ⟨trivial, fun _ => trivial⟩
        refine only_bind (same _ _) fun ok => only_ite (only_bind closed fun _ => ?_) (only_pure _)
        exact only_bind (only_mono closing_of_quiet (quiet_report b _ _)) fun _ => only_throw _
      · trivial
    · trivial
  · trivial

theorem closing_quiet {α : Type} {code : Code α} (quiet : Only Quiet code) : Only Closing code :=
  only_mono closing_of_quiet quiet

theorem owes_runOn {α : Type} {placed : Placed} {syscall : String} {dest : Option Placed} {code : Code α}
    {handles : List Nat} {ok : α → Duty → Prop}
    (body : Owes (ledger false stays) ok (fun _ => OwesOnly handles) code duty) :
    Owes (ledger false stays) ok (fun _ => OwesOnly handles) (runOn placed syscall dest code) duty :=
  owes_catch body fun _ _ owes => owes_throw owes

theorem owes_copyInto {excl : Bool} {source dest : Placed} {src : Nat} {handles : List Nat}
    (owes : OwesOnly handles duty) :
    Owes (ledger false stays) (fun _ => OwesOnly handles) (fun _ => OwesOnly handles)
      (copyInto b excl source dest src) duty := by
  refine owes_bind (owes_closing (closing_quiet (quiet_fhStat src)) owes) fun st after owes => ?_
  refine owes_bind (owes_closing (closing_quiet (only_refuseIf _ _)) owes) fun _ after owes => ?_
  refine owes_bind (owes_closing (closing_verifyOpened b _ _ _ _) owes) fun _ after owes => ?_
  refine owes_bind (owes_closing (closing_quiet (only_hostOf dest)) owes) fun destHost after owes => ?_
  refine owes_bind (owes_runOn (owes_fsOpen owes)) fun dst after owes => ?_
  apply owes_closed
  refine owes_bind (owes_closing (closing_verifyOpened b _ _ _ _) owes) fun _ after owes => ?_
  refine owes_bind (owes_closing (closing_quiet (quiet_fhCall _ _ _)) owes) fun _ after owes => ?_
  exact owes_closing (closing_quiet (quiet_copyPieces _ _ _)) owes

theorem owes_copy {excl : Bool} {source dest : Placed} (owes : OwesOnly [] duty) :
    Owes (ledger false stays) (fun _ => OwesOnly []) (fun _ => OwesOnly []) (copy b excl source dest) duty := by
  have opened : Owes (ledger false stays) (fun src => OwesOnly [src]) (fun _ => OwesOnly [])
      (runOn source "copyfile" (some dest) do
        let sourceHost ← hostOf source
        fsOpen sourceHost {} 0) duty := by
    apply owes_runOn
    refine owes_bind (owes_closing (closing_quiet (only_hostOf source)) owes) fun sourceHost after owes => ?_
    exact owes_fsOpen owes
  refine owes_bind opened fun src after owes => ?_
  apply owes_closed
  exact owes_bind (owes_copyInto b owes) fun _ _ owes => owes_pure owes

theorem owes_counted {α : Type} {opens : Bool} {placed : Placed} {bytes entries : DiskQuota.Amount Int}
    {syscall : String} {code : Code α} {actual : DiskQuota.Amount Int × DiskQuota.Amount Int}
    (body : ∀ {duty : Duty}, duty.clear →
      Owes (ledger opens stays) (fun _ => Duty.clear) (fun _ => Duty.clear) code duty) (clear : duty.clear) :
    Owes (ledger opens stays) (fun _ => Duty.clear) (fun _ => Duty.clear)
      (counted b placed bytes entries syscall code actual) duty := by
  unfold counted
  split
  · refine owes_bind (owes_still (quiet_reserve _ _ _ _) clear) fun _ after clear => ?_
    refine owes_bind (owes_catch (body clear) fun error after clear => ?_) fun value after clear => ?_
    · exact owes_bind (owes_still (only_act (by trivial)) clear) fun _ _ clear => owes_throw clear
    · exact owes_bind (owes_still (only_act (by trivial)) clear) fun _ _ clear => owes_pure clear
  · exact body clear

theorem owes_copyFile {source dest : PathArg} {excl : Bool} (clear : duty.clear) :
    Owes (ledger false stays) (fun _ => Duty.clear) (fun _ => Duty.clear) (copyFile b source dest excl) duty := by
  refine owes_bind (owes_still (quiet_place b _ _ _ _) clear) fun source after clear => ?_
  refine owes_bind (owes_still (quiet_place b _ _ _ _) clear) fun dest after clear => ?_
  have copied {duty : Duty} (clear : duty.clear) :
      Owes (ledger false stays) (fun _ => Duty.clear) (fun _ => Duty.clear) (copy b excl source dest) duty :=
    owes_mono (owes_copy b (owesOnly_nil clear)) (fun _ _ owes => owes.clear) (fun _ _ owes => owes.clear)
  split
  · refine owes_bind (owes_still (only_orNull ?_) clear) fun src after clear => ?_
    · exact only_bind (only_hostOf source) fun _ => quiet_fsStat _
    refine owes_bind (owes_still (only_hostOf dest) clear) fun destHost after clear => ?_
    refine owes_bind (owes_still (quiet_lstatOrNull destHost) clear) fun dst after clear => ?_
    exact owes_counted b copied clear
  · exact copied clear

end Copying

/-- Operations that open or close files. -/
def handlesFiles : Op → Bool
  | .copyFile .. | .open .. | .readFile .. | .writeFile .. | .close .. => true
  | _ => false

theorem quiet_runOp (b : Broker) {op : Op} (plain : handlesFiles op = false) : Only Quiet (runOp b op) := by
  cases op with
  | access path => exact quiet_access b path
  | exist path => exact quiet_exist b path
  | stat path => exact quiet_statWith b _ _ path
  | lstat path => exact quiet_statWith b _ _ path
  | realpath path => exact quiet_realpathOp b path
  | readlink path => exact quiet_readlink b path
  | readdir path recursive withFileTypes => exact quiet_readdir b _ _ _
  | statfs path => exact quiet_statfs b path
  | mkdir path recursive mode => exact quiet_mkdir b _ _ _
  | mkdtemp path => exact quiet_mkdtemp b path
  | rmdir path => exact quiet_rmdir b path
  | rm path recursive force => exact quiet_removing b _ _ _
  | unlink path => exact quiet_removing b _ _ _
  | rename source dest => exact quiet_rename b _ _
  | copyFile source dest excl => cases plain
  | link source dest => exact quiet_link b _ _
  | symlink target path => exact quiet_symlink b _ _
  | chmod path mode => exact quiet_attrsWith b _ _ _ _
  | chown path uid gid => exact quiet_attrsWith b _ _ _ _
  | lchown path uid gid => exact quiet_attrsWith b _ _ _ _
  | utimes path atime mtime => exact quiet_attrsWith b _ _ _ _
  | lutimes path atime mtime => exact quiet_attrsWith b _ _ _ _
  | truncate path length => exact quiet_truncate b _ _
  | «open» path flags mode => cases plain
  | readFile path flags => cases plain
  | writeFile path bytes flags mode => cases plain
  | close fd => cases plain
  | read fd length position => exact quiet_read _ _ _
  | write fd bytes position => exact only_bind (quiet_write b _ _ _) fun _ => trivial
  | fstat fd => exact only_bind (quiet_fdEntry _ _) fun _ => only_bind (quiet_fhStat _) fun _ => trivial
  | ftruncate fd length => exact quiet_ftruncate b _ _
  | fsync fd => exact quiet_onDescriptor _ _ _
  | fdatasync fd => exact quiet_onDescriptor _ _ _
  | fchmod fd mode => exact quiet_onDescriptor _ _ _
  | fchown fd uid gid => exact quiet_onDescriptor _ _ _
  | futimes fd atime mtime => exact quiet_onDescriptor _ _ _

/-- Every operation ends with nothing of its own open; the descriptor of an `open` stays in the table. -/
theorem owes_runOp (b : Broker) (op : Op) :
    Owes (ledger (opens op) (stays op)) (fun _ => Duty.clear) (fun _ => Duty.clear) (runOp b op) Duty.none := by
  have clear : Duty.none.clear := ⟨rfl, rfl, rfl⟩
  cases op with
  | copyFile source dest excl => exact owes_copyFile b clear
  | «open» path flags mode => exact owes_openOp b clear
  | readFile path flags => exact owes_readFile b clear
  | writeFile path bytes flags mode => exact owes_writeFile b clear
  | close fd => exact owes_close rfl rfl (fun _ => False.elim ∘ List.not_mem_nil) (.inl rfl)
  | _ => exact owes_still (quiet_runOp b rfl) clear

end Countinghouse.DescriptorDuty
