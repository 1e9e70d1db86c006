import Countinghouse.BrokerChecks

/-!
What each operation of the broker asks of the host: the calls it can make, and what
was checked before each (`Warrant`, `OpenWarrant`). Later modules reason about these
and not about the programs.
-/

namespace Countinghouse.BrokerWarrant

open HostTree HostEffects FileNamespace BrokerWorld FsBroker BrokerChecks
open HostCalls hiding rename link symlink truncate unlink openFile place
open Program (Prog)
open DiskQuota (Amount)

/-! Families of operations. -/

/-- Operations that look at one object, with whether they follow a link. -/
def looks : Op → Option (PathArg × Bool)
  | .access path | .exist path | .stat path | .realpath path | .statfs path => some (path, true)
  | .lstat path | .readlink path => some (path, false)
  | _ => none

def removal : Op → Option (PathArg × (Path → Call))
  | .rmdir path => some (path, .rmdir)
  | .rm path recursive force => some (path, fun host => .rm host recursive force)
  | .unlink path => some (path, .unlink)
  | _ => none

def attrEdit : Op → Option (PathArg × Bool × AttrEdit)
  | .chmod path mode => some (path, true, .mode (permissionBits mode))
  | .chown path uid gid => some (path, true, .owner uid gid)
  | .lchown path uid gid => some (path, false, .owner uid gid)
  | .utimes path atime mtime => some (path, true, .times atime mtime)
  | .lutimes path atime mtime => some (path, false, .times atime mtime)
  | _ => none

/-- Operations that open one file. -/
def opens : Op → Option (PathArg × FlagsArg)
  | .open path flags _ => some (path, flags)
  | .readFile path flags => some (path, orRead flags)
  | .writeFile path _ flags _ => some (path, orWrite flags)
  | _ => none

/-- Operations that change the attributes of an open file. -/
def descriptorEdit : Op → Option Nat
  | .fchmod fd _ | .fchown fd _ _ | .futimes fd _ _ => some fd
  | _ => none

def pathArgs : Op → List PathArg
  | .access path | .exist path | .stat path | .lstat path | .realpath path | .readlink path
  | .readdir path _ _ | .statfs path | .mkdir path _ _ | .mkdtemp path | .rmdir path | .rm path _ _
  | .unlink path | .symlink _ path | .chmod path _ | .chown path _ _ | .lchown path _ _
  | .utimes path _ _ | .lutimes path _ _ | .truncate path _ | .open path _ _ | .readFile path _
  | .writeFile path _ _ _ => [path]
  | .rename source dest | .copyFile source dest _ | .link source dest => [source, dest]
  | _ => []

/-- The directories whose real path an operation asks for. -/
def opDirs (b : Broker) (op : Op) : List Path := (pathArgs op).flatMap (pathDirs b)

/-! Warrants. -/
section Warrants

variable (b : Broker) (world : World)

/-- A path argument that `place` put at a host path. -/
structure PlacedAt (path : PathArg) (want : Want) (follow : Bool) (placed : Placed) (host : Path) :
    Prop where
  stands : Stands b world path want follow placed
  placedHost : placed.host = some host

inductive Warrant : Op → Call → Prop where
  | look (op : Op) (path : PathArg) (follow : Bool) (placed : Placed) (host : Path)
      (asked : looks op = some (path, follow)) (sited : PlacedAt b world path .r follow placed host) :
      Warrant op (.look host follow)
  | list (path : PathArg) (recursive types : Bool) (placed : Placed) (host : Path)
      (sited : PlacedAt b world path .r true placed host) :
      Warrant (.readdir path recursive types) (.list host recursive)
  | mkdir (path : PathArg) (recursive : Bool) (mode : Nat) (placed : Placed) (host : Path)
      (sited : PlacedAt b world path .w false placed host) :
      Warrant (.mkdir path recursive mode) (.mkdir host recursive mode)
  | mkdtemp (path : PathArg) (placed : Placed) (host : Path)
      (sited : PlacedAt b world path .w false placed host) :
      Warrant (.mkdtemp path) (.mkdtemp host)
  | remove (op : Op) (call : Call) (path : PathArg) (make : Path → Call) (placed : Placed) (host : Path)
      (asked : removal op = some (path, make)) (sited : PlacedAt b world path .w false placed host)
      (made : call = make host) (inner : isRoot placed = false) : Warrant op call
  | rename (source dest : PathArg) (origin goal : Placed) (src dst : Path)
      (sourceAt : PlacedAt b world source .w false origin src)
      (destAt : PlacedAt b world dest .w false goal dst)
      (inner : isRoot origin = false ∧ isRoot goal = false)
      (same : rootOf origin = rootOf goal ∨ rootOf origin = none ∨ rootOf goal = none) :
      Warrant (.rename source dest) (.rename src dst)
  | link (source dest : PathArg) (origin goal : Placed) (src dst : Path)
      (sourceAt : PlacedAt b world source .r false origin src)
      (destAt : PlacedAt b world dest .w false goal dst)
      (same : rootOf origin = rootOf goal) (writable : ∀ root, rootOf goal = some root → root.writable = true) :
      Warrant (.link source dest) (.link src dst)
  | symlink (target : PathText) (path : PathArg) (placed : Placed) (host : Path)
      (sited : PlacedAt b world path .w false placed host)
      (allowed : linkRefused target placed = false) :
      Warrant (.symlink target path) (.symlink target host)
  | attrs (op : Op) (path : PathArg) (follow : Bool) (edit : AttrEdit) (placed : Placed) (host : Path)
      (asked : attrEdit op = some (path, follow, edit))
      (sited : PlacedAt b world path .w follow placed host) :
      Warrant op (.attrs host follow edit)
  | truncate (path : PathArg) (length : Length) (placed : Placed) (host : Path)
      (sited : PlacedAt b world path .w true placed host) :
      Warrant (.truncate path length) (.truncate host length.accepted)

inductive OpenWarrant : Op → Path → OpenFlags → Prop where
  | file (op : Op) (path : PathArg) (arg : FlagsArg) (flags : OpenFlags) (placed : Placed) (host : Path)
      (asked : opens op = some (path, arg)) (read : numericFlags arg = some flags)
      (sited : PlacedAt b world path (if writes flags then .w else .r) true placed host) :
      OpenWarrant op host { flags with trunc := false }
  | copySource (source dest : PathArg) (excl : Bool) (placed : Placed) (host : Path)
      (sited : PlacedAt b world source .r true placed host) :
      OpenWarrant (.copyFile source dest excl) host {}
  | copyDest (source dest : PathArg) (excl : Bool) (placed : Placed) (host : Path)
      (sited : PlacedAt b world dest .w true placed host) :
      OpenWarrant (.copyFile source dest excl) host { wronly := true, creat := true, excl := excl }

/-- What an action of an operation that began in `world` may be. -/
def Permit (op : Op) (now : World) : Act → Prop
  | .call call =>
      now.host = world.host ∧ Looked (opDirs b op) world now ∧ Warrant b world op call
  | .openFile path flags _ => now.host = world.host ∧ OpenWarrant b world op path flags
  | .onFile handle (.attrs _) =>
      ∃ fd entry, descriptorEdit op = some fd ∧ (fd, entry) ∈ world.entries ∧ entry.handle = handle ∧
        now = world
  | .remember dir hit => realpath now.host.names dir = .ok hit.real
  | _ => True

end Warrants

/-- The host path that an argument stands for, whatever `place` decides about it. -/
def argHost (b : Broker) (path : PathArg) : Option Path :=
  match (toVirtualPath b.cwd path).map (FileNamespace.resolve b.ns) with
  | some (.root _ host _) => some host
  | some (.ancestor virtual _) => some virtual
  | some (.outside virtual) => some virtual
  | none => none

theorem arg_host_of_placed {b : Broker} {world : World} {path : PathArg} {want : Want} {follow : Bool}
    {placed : Placed} {host : Path} (sited : PlacedAt b world path want follow placed host) :
    argHost b path = some host := by
  obtain ⟨stands, found⟩ := sited
  unfold argHost
  cases stands with
  | above virtual v kids named resolved reading => simp [Placed.host] at found
  | free virtual v named unrooted same unguarded =>
      obtain rfl : v = host := Option.some.inj found
      rw [named, Option.map_some]
      cases resolved : FileNamespace.resolve b.ns virtual with
      | root v host root => exact absurd resolved (unrooted v host root)
      | ancestor v kids => rw [← same, resolved]; rfl
      | outside v => rw [← same, resolved]; rfl
  | rooted virtual site named resolved cleared writable =>
      obtain rfl : site.host = host := Option.some.inj found
      rw [named, Option.map_some, resolved]

theorem removal_removes {op : Op} {path : PathArg} {make : Path → Call}
    (asked : removal op = some (path, make)) (host : Path) : removes (make host) = true := by
  cases op <;> simp only [removal, reduceCtorEq, Option.some.injEq, Prod.mk.injEq] at asked
  all_goals
    obtain ⟨_, rfl⟩ := asked
    rfl

theorem removal_sites {op : Op} {path : PathArg} {make : Path → Call}
    (asked : removal op = some (path, make)) :
    path ∈ pathArgs op ∧ lockOf op = some .exclusive ∧
      ∀ host chance site, changeSites host chance (make site) = located (leaf host.names site) := by
  cases op <;> simp only [removal, reduceCtorEq, Option.some.injEq, Prod.mk.injEq] at asked
  all_goals
    obtain ⟨rfl, rfl⟩ := asked
    exact ⟨List.mem_singleton_self _, rfl, fun _ _ _ => rfl⟩

/-! Every action of an operation is permitted. -/
section Permitted

variable {b : Broker} {world now : World} {op : Op} {α : Type}

-- The equations of `pathArgs` are made here once, ahead of the proofs that use them.
attribute [local simp] pathArgs

/-- Every action of a program is permitted, however it ends. -/
abbrev Permitted (b : Broker) (world : World) (op : Op) (prog : Code α) (now : World) : Prop :=
  prog.Spec handle (Permit b world op) (fun _ _ => True) (fun _ _ => True) now

theorem quiet_permit {dirs : List Path} {act : Act} (quiet : Quiet dirs now act) :
    Permit b world op now act := by
  cases act with
  | remember dir hit => exact quiet.2
  | call call => exact quiet.elim
  | openFile path flags mode => exact quiet.elim
  | onFile handle act => exact quiet.elim
  | _ => trivial

theorem quiet_permitted {dirs : List Path} {prog : Code α}
    (quiet : prog.Spec handle (Quiet dirs) (fun _ _ => True) (fun _ _ => True) now) :
    Permitted b world op prog now :=
  Program.spec_mono quiet (fun _ _ still => quiet_permit still) (fun _ _ _ => trivial)
    fun _ _ _ => trivial

theorem run_on_rule {good : World → Act → Prop} {ok : α → World → Prop} {placed : Placed}
    {syscall : String} {dest : Option Placed} {fn : Code α}
    (spec : fn.Spec handle good ok (fun _ _ => True) now) :
    (runOn placed syscall dest fn).Spec handle good ok (fun _ _ => True) now := by
  simp only [runOn, Program.spec_catch, Program.spec_throw]
  exact spec

theorem host_of_rule {good : World → Act → Prop} {ok : Path → World → Prop} {placed : Placed}
    (ends : ∀ host, placed.host = some host → ok host now) :
    (hostOf placed).Spec handle good ok (fun _ _ => True) now := by
  unfold hostOf
  cases found : placed.host with
  | none => trivial
  | some host => exact ends host found

theorem call_rule {good : World → Act → Prop} {ok : Reply → World → Prop} {syscall : String} {call : Call}
    (permit : good now (.call call)) (ends : ∀ reply after, ok reply after) :
    (fsCall syscall call).Spec handle good ok (fun _ _ => True) now := by
  simp only [fsCall, Program.spec_bind, try_call_spec]
  refine ⟨permit, ?_⟩
  cases (now.outcome call).2 with
  | error code => trivial
  | ok reply => exact ends _ _

/-- Reserving and settling only look, as far as the host is concerned. -/
theorem counted_rule {placed : Placed} {bytes entries : Amount Int} {syscall : String}
    {fn : Code α} {actual : Amount Int × Amount Int}
    (spec : ∀ after, Looked [] now after → Permitted b world op fn after) :
    Permitted b world op (counted b placed bytes entries syscall fn actual) now := by
  simp only [Permitted, counted, FsBroker.reserve, Program.spec_ite, Program.spec_bind,
    quota_reserve_spec, refuse_if_spec, Program.spec_catch, settle_spec, Program.spec_throw,
    Program.spec_pure]
  split
  · have looked : Looked [] now (handle (.reserve bytes entries) now).2 :=
      @quiet_looked [] now (.reserve bytes entries) trivial
    refine ⟨trivial, ?_⟩
    split
    · trivial
    · refine Program.spec_mono (spec _ looked) (fun _ _ permit => permit) ?_ ?_
      · intro value after _
        exact ⟨trivial, trivial⟩
      · intro error after _
        exact ⟨trivial, trivial⟩
  · exact spec now (looked_refl now)

theorem path_dirs_subset {path : PathArg} (member : path ∈ pathArgs op) :
    pathDirs b path ⊆ opDirs b op :=
  fun _ found => List.mem_flatMap.mpr ⟨path, member, found⟩

/-- Placing a path argument of the operation, when nothing but looking came before. -/
theorem place_permitted {path : PathArg} {want : Want} {syscall : String} {follow : Bool}
    {ok : Placed → World → Prop} (member : path ∈ pathArgs op)
    (looked : Looked (opDirs b op) world now)
    (ends : ∀ placed after, Looked (opDirs b op) world after →
      Stands b world path want follow placed → ok placed after) :
    (FsBroker.place b path want syscall follow).Spec handle (Permit b world op) ok
      (fun _ _ => True) now := by
  apply place_rule (path_dirs_subset member) (fun _ _ quiet => quiet_permit quiet)
  · intro error after _
    trivial
  · intro placed after later stands
    refine ends placed after (looked_trans looked later) ?_
    cases stands with
    | above virtual v kids named resolved reading => exact .above virtual v kids named resolved reading
    | free virtual v named unrooted same unguarded => exact .free virtual v named unrooted same unguarded
    | rooted virtual site named resolved cleared writable =>
        refine .rooted virtual site named resolved ?_ writable
        intro guarded told
        have seen := cleared guarded (looked_true looked told)
        rwa [looked.host] at seen

/-- A call of a placed operation, after more looking. -/
theorem permit_call {call : Call} (looked : Looked (opDirs b op) world now)
    (warrant : Warrant b world op call) : Permit b world op now (.call call) :=
  ⟨looked.host, looked, warrant⟩

theorem looked_any {dirs : List Path} {before after : World} (looked : Looked [] before after) :
    Looked dirs before after := looked_mono (List.nil_subset dirs) looked

theorem access_permitted (path : PathArg) :
    Permitted b world (.access path) (access b path) world := by
  simp only [Permitted, access, Program.spec_bind]
  apply place_permitted (by simp [pathArgs]) (looked_refl world)
  intro placed after looked stands
  cases found : placed.host with
  | none => trivial
  | some host =>
      apply run_on_rule
      simp only [Program.spec_bind, Program.spec_pure]
      exact call_rule (permit_call looked (.look _ path true placed host rfl ⟨stands, found⟩))
        fun _ _ => trivial

theorem exist_permitted (path : PathArg) : Permitted b world (.exist path) (exist b path) world := by
  simp only [Permitted, exist, Program.spec_bind, Program.spec_catch, Program.spec_pure]
  apply place_permitted (by simp [pathArgs]) (looked_refl world)
  intro placed after looked stands
  cases found : placed.host with
  | none => trivial
  | some host =>
      simp only [Program.spec_bind, Program.spec_pure]
      exact call_rule (permit_call looked (.look _ path true placed host rfl ⟨stands, found⟩))
        fun _ _ => trivial

theorem stats_of_spec {good : World → Act → Prop} (reply : Reply) :
    (statsOf reply).Spec handle good (fun _ _ => True) (fun _ _ => True) now := by
  cases reply <;> trivial

theorem stat_with_permitted {op : Op} {syscall : String} {follow : Bool} {path : PathArg}
    (asked : looks op = some (path, follow)) (member : path ∈ pathArgs op) :
    Permitted b world op (statWith b syscall follow path) world := by
  simp only [Permitted, statWith, Program.spec_bind]
  apply place_permitted member (looked_refl world)
  intro placed after looked stands
  cases found : placed.host with
  | none => trivial
  | some host =>
      apply run_on_rule
      simp only [Program.spec_bind]
      exact call_rule (permit_call looked (.look _ path follow placed host asked ⟨stands, found⟩))
        fun reply _ => stats_of_spec reply

theorem realpath_permitted (path : PathArg) :
    Permitted b world (.realpath path) (realpathOp b path) world := by
  simp only [Permitted, realpathOp, Program.spec_bind]
  apply place_permitted (by simp [pathArgs]) (looked_refl world)
  intro placed after looked stands
  cases found : placed.host with
  | none => trivial
  | some host =>
      apply run_on_rule
      simp only [Program.spec_bind]
      apply call_rule (permit_call looked (.look _ path true placed host rfl ⟨stands, found⟩))
      intro reply later
      cases reply <;> trivial

theorem readlink_permitted (path : PathArg) :
    Permitted b world (.readlink path) (readlink b path) world := by
  simp only [Permitted, readlink, Program.spec_bind]
  apply place_permitted (by simp [pathArgs]) (looked_refl world)
  intro placed after looked stands
  apply run_on_rule
  simp only [Program.spec_bind]
  apply host_of_rule
  intro host found
  apply call_rule (permit_call looked (.look _ path false placed host rfl ⟨stands, found⟩))
  intro reply later
  cases reply with
  | seen location node inode links =>
      obtain ⟨ino, kind⟩ := node
      cases kind with
      | link target =>
          simp only [Program.spec_ite, Program.spec_pure]
          split
          · split <;> trivial
          · trivial
      | _ => trivial
  | _ => trivial

theorem statfs_permitted (path : PathArg) : Permitted b world (.statfs path) (statfs b path) world := by
  simp only [Permitted, statfs, Program.spec_bind]
  apply place_permitted (by simp [pathArgs]) (looked_refl world)
  intro placed after looked stands
  apply run_on_rule
  simp only [Program.spec_bind, Program.spec_pure]
  apply host_of_rule
  intro host found
  exact call_rule (permit_call looked (.look _ path true placed host rfl ⟨stands, found⟩))
    fun _ _ => trivial

theorem readdir_permitted (path : PathArg) (recursive withFileTypes : Bool) :
    Permitted b world (.readdir path recursive withFileTypes) (readdir b path recursive withFileTypes)
      world := by
  simp only [Permitted, readdir, Program.spec_bind]
  apply place_permitted (by simp [pathArgs]) (looked_refl world)
  intro placed after looked stands
  have listing : Permitted b world (.readdir path recursive withFileTypes)
      (scandir b placed recursive withFileTypes) after := by
    unfold Permitted scandir
    apply run_on_rule
    simp only [Program.spec_bind]
    apply host_of_rule
    intro host found
    apply call_rule (permit_call looked
      (.list path recursive withFileTypes placed host ⟨stands, found⟩))
    intro reply later
    cases reply with
    | listing location entries =>
        simp only [Program.spec_bind, refuse_if_spec, Program.spec_pure]
        split <;> trivial
    | _ => trivial
  cases placed with
  | above virtual kids => trivial
  | free virtual => exact listing
  | rooted site => exact listing

/-! Programs that only look. -/

theorem lstat_or_null_quiet (host : Path) :
    (lstatOrNull host).Spec handle (Quiet []) (fun _ _ => True) (fun _ _ => True) now := by
  simp only [lstatOrNull, fsLstat, or_null_spec, Program.spec_bind, try_lstat_spec]
  refine ⟨trivial, ?_⟩
  cases lookAt now.host host false <;> trivial

theorem missing_above_quiet (stop : Path) (fuel : Nat) (host : Path) :
    (missingAbove stop fuel host).Spec handle (Quiet []) (fun _ _ => True) (fun _ _ => True) now := by
  induction fuel generalizing host now with
  | zero => trivial
  | succ fuel ih =>
      simp only [missingAbove, Program.spec_ite, Program.spec_bind, Program.spec_pure]
      split
      · trivial
      · refine Program.spec_mono (lstat_or_null_quiet host) (fun _ _ quiet => quiet) ?_
          (fun _ _ _ => trivial)
        intro st after _
        cases st with
        | some st => trivial
        | none =>
            simp only [Program.spec_bind, Program.spec_pure]
            exact ih (dirname host)

theorem missing_names_quiet (recursive : Bool) (placed : Placed) :
    (missingNames b recursive placed).Spec handle (Quiet []) (fun _ _ => True) (fun _ _ => True) now := by
  cases placed with
  | rooted site =>
      simp only [missingNames, Program.spec_ite, Program.spec_pure]
      split
      · exact missing_above_quiet _ _ _
      · trivial
  | _ => trivial

theorem removal_usage_quiet (host : Path) :
    (removalUsage host).Spec handle (Quiet []) (fun _ _ => True) (fun _ _ => True) now := by
  simp only [removalUsage, Program.spec_bind]
  refine Program.spec_mono (lstat_or_null_quiet host) (fun _ _ quiet => quiet) ?_ (fun _ _ _ => trivial)
  intro st after _
  cases st with
  | none => trivial
  | some st =>
      simp only [Program.spec_ite, Program.spec_bind, try_measure_spec, Program.spec_pure]
      split
      · refine ⟨trivial, ?_⟩
        cases BrokerWorld.measure after.host host <;> trivial
      · trivial

theorem measured_quiet (placed : Placed) (host : Path) :
    (measured b placed host).Spec handle (Quiet []) (fun _ _ => True) (fun _ _ => True) now := by
  simp only [measured, Program.spec_ite, Program.spec_pure]
  split
  · exact removal_usage_quiet host
  · trivial

theorem measured_replaced_quiet (dest : Placed) (src dst : Path) :
    (measuredReplaced b dest src dst).Spec handle (Quiet []) (fun _ _ => True) (fun _ _ => True)
      now := by
  simp only [measuredReplaced, Program.spec_ite, Program.spec_bind, Program.spec_pure]
  split
  · refine Program.spec_mono (lstat_or_null_quiet src) (fun _ _ quiet => quiet) ?_ (fun _ _ _ => trivial)
    intro st after _
    exact lstat_or_null_quiet dst
  · trivial

theorem stat_if_quiet (counted : Bool) (host : Path) :
    (statIf counted host).Spec handle (Quiet []) (fun _ _ => True) (fun _ _ => True) now := by
  simp only [statIf, fsStat, Program.spec_ite, or_null_spec, Program.spec_bind, try_stat_spec,
    Program.spec_pure]
  split
  · refine ⟨trivial, ?_⟩
    cases lookAt now.host host true <;> trivial
  · trivial

theorem lstat_if_quiet (counted : Bool) (host : Path) :
    (lstatIf counted host).Spec handle (Quiet []) (fun _ _ => True) (fun _ _ => True) now := by
  simp only [lstatIf, Program.spec_ite, Program.spec_pure]
  split
  · exact lstat_or_null_quiet host
  · trivial

theorem release_quiet (placed : Placed) (usage : Usage) :
    (release b placed usage).Spec handle (Quiet []) (fun _ _ => True) (fun _ _ => True) now := by
  simp only [release, only_if_spec, settle_spec]
  split
  · exact ⟨trivial, trivial⟩
  · trivial

/-- Looking in the middle of an operation. -/
theorem quiet_then {prog : Code α} {ok : α → World → Prop}
    (quiet : prog.Spec handle (Quiet []) (fun _ _ => True) (fun _ _ => True) now)
    (ends : ∀ value after, Looked [] now after → ok value after) :
    prog.Spec handle (Permit b world op) ok (fun _ _ => True) now :=
  quiet_rule quiet (fun _ _ still => quiet_permit still) ends fun _ _ _ => trivial

/-! Operations that change names. -/

theorem mkdir_permitted (path : PathArg) (recursive : Bool) (mode : Nat) :
    Permitted b world (.mkdir path recursive mode) (mkdir b path recursive mode) world := by
  simp only [Permitted, mkdir, Program.spec_bind]
  apply place_permitted (by simp [pathArgs]) (looked_refl world)
  intro placed after looked stands
  apply quiet_then (missing_names_quiet recursive placed)
  intro missing later quiet
  apply counted_rule
  intro last settled
  apply run_on_rule
  simp only [Program.spec_bind, Program.spec_pure]
  apply host_of_rule
  intro host found
  have seen := looked_trans looked (looked_trans (looked_any quiet) (looked_any settled))
  exact call_rule (permit_call seen (.mkdir path recursive mode placed host ⟨stands, found⟩))
    fun _ _ => trivial

theorem mkdtemp_permitted (path : PathArg) :
    Permitted b world (.mkdtemp path) (mkdtemp b path) world := by
  simp only [Permitted, mkdtemp, Program.spec_bind]
  apply place_permitted (by simp [pathArgs]) (looked_refl world)
  intro placed after looked stands
  apply counted_rule
  intro last settled
  apply run_on_rule
  simp only [Program.spec_bind, Program.spec_pure]
  apply host_of_rule
  intro host found
  exact call_rule
    (permit_call (looked_trans looked (looked_any settled)) (.mkdtemp path placed host ⟨stands, found⟩))
    fun _ _ => trivial

theorem rmdir_permitted (path : PathArg) : Permitted b world (.rmdir path) (rmdir b path) world := by
  simp only [Permitted, rmdir, Program.spec_bind, refuse_if_spec, Program.spec_pure]
  apply place_permitted (by simp [pathArgs]) (looked_refl world)
  intro placed after looked stands
  split
  · trivial
  · next inner =>
      apply run_on_rule
      simp only [Program.spec_bind, Program.spec_pure]
      apply host_of_rule
      intro host found
      apply call_rule (permit_call looked
        (.remove _ _ path _ placed host rfl ⟨stands, found⟩ rfl (by simpa using inner)))
      intro reply later
      exact quiet_permitted (release_quiet placed ⟨0, 1⟩)

theorem removing_permitted {op : Op} {syscall : String} {call : Path → Call} {path : PathArg}
    (asked : removal op = some (path, call)) (member : path ∈ pathArgs op) :
    Permitted b world op (removing b syscall call path) world := by
  simp only [Permitted, removing, Program.spec_bind, refuse_if_spec, Program.spec_pure]
  apply place_permitted member (looked_refl world)
  intro placed after looked stands
  split
  · trivial
  next inner =>
    apply host_of_rule
    intro host found
    apply quiet_then (measured_quiet placed host)
    intro usage later quiet
    apply run_on_rule
    simp only [Program.spec_bind, Program.spec_pure]
    apply call_rule (permit_call (looked_trans looked (looked_any quiet))
      (.remove op _ path call placed host asked ⟨stands, found⟩ rfl (by simpa using inner)))
    intro reply last
    exact quiet_permitted (release_quiet placed usage)

theorem rename_permitted (source dest : PathArg) :
    Permitted b world (.rename source dest) (rename b source dest) world := by
  simp only [Permitted, rename, Program.spec_bind, refuse_if_spec, Program.spec_pure]
  apply place_permitted (by simp [pathArgs]) (looked_refl world)
  intro origin middle early originStands
  apply place_permitted (by simp [pathArgs]) early
  intro goal after looked goalStands
  split
  · trivial
  next inner =>
    split
    · trivial
    next crossing =>
      apply host_of_rule
      intro src originAt
      apply host_of_rule
      intro dst goalAt
      apply quiet_then (measured_replaced_quiet goal src dst)
      intro usage later quiet
      apply run_on_rule
      simp only [Program.spec_bind, Program.spec_pure]
      have roots : rootOf origin = rootOf goal ∨ rootOf origin = none ∨ rootOf goal = none := by
        cases one : rootOf origin with
        | none => exact Or.inr (Or.inl rfl)
        | some first =>
            cases two : rootOf goal with
            | none => exact Or.inr (Or.inr rfl)
            | some second => simpa [one, two] using crossing
      apply call_rule (permit_call (looked_trans looked (looked_any quiet))
        (.rename source dest origin goal src dst ⟨originStands, originAt⟩ ⟨goalStands, goalAt⟩
          (by simpa using inner) roots))
      intro reply last
      exact quiet_permitted (release_quiet goal usage)

theorem link_permitted (source dest : PathArg) :
    Permitted b world (.link source dest) (link b source dest) world := by
  simp only [Permitted, link, Program.spec_bind, refuse_if_spec]
  apply place_permitted (by simp [pathArgs]) (looked_refl world)
  intro origin middle early originStands
  apply place_permitted (by simp [pathArgs]) early
  intro goal after looked goalStands
  split
  · trivial
  next allowed =>
    apply counted_rule
    intro last settled
    apply run_on_rule
    simp only [Program.spec_bind, Program.spec_pure]
    apply host_of_rule
    intro src originAt
    apply host_of_rule
    intro dst goalAt
    have roots : rootOf origin = rootOf goal ∧
        ∀ root, rootOf goal = some root → root.writable = true := by
      cases one : rootOf origin with
      | none =>
          cases two : rootOf goal with
          | none => exact ⟨rfl, by simp⟩
          | some second => simp [one, two] at allowed
      | some first =>
          cases two : rootOf goal with
          | none => simp [one, two] at allowed
          | some second =>
              simp [one, two] at allowed
              obtain ⟨same, writable⟩ := allowed
              exact ⟨by rw [same], fun root found => by rw [← Option.some.inj found]; exact writable⟩
    exact call_rule (permit_call (looked_trans looked (looked_any settled))
      (.link source dest origin goal src dst ⟨originStands, originAt⟩ ⟨goalStands, goalAt⟩
        roots.1 roots.2)) fun _ _ => trivial

theorem symlink_permitted (target : PathText) (path : PathArg) :
    Permitted b world (.symlink target path) (symlink b target path) world := by
  simp only [Permitted, symlink, Program.spec_bind, refuse_if_spec]
  apply place_permitted (by simp [pathArgs]) (looked_refl world)
  intro placed after looked stands
  split
  · trivial
  next allowed =>
    apply counted_rule
    intro last settled
    apply run_on_rule
    simp only [Program.spec_bind, Program.spec_pure]
    apply host_of_rule
    intro host found
    exact call_rule (permit_call (looked_trans looked (looked_any settled))
      (.symlink target path placed host ⟨stands, found⟩ (by simpa using allowed))) fun _ _ => trivial

theorem attrs_with_permitted {op : Op} {syscall : String} {follow : Bool} {edit : AttrEdit}
    {path : PathArg} (asked : attrEdit op = some (path, follow, edit)) (member : path ∈ pathArgs op) :
    Permitted b world op (attrsWith b syscall follow edit path) world := by
  simp only [Permitted, attrsWith, Program.spec_bind]
  apply place_permitted member (looked_refl world)
  intro placed after looked stands
  apply run_on_rule
  simp only [Program.spec_bind, Program.spec_pure]
  apply host_of_rule
  intro host found
  exact call_rule (permit_call looked (.attrs op path follow edit placed host asked ⟨stands, found⟩))
    fun _ _ => trivial

theorem truncate_permitted (path : PathArg) (length : Length) :
    Permitted b world (.truncate path length) (truncate b path length) world := by
  simp only [Permitted, truncate, Program.spec_bind]
  apply place_permitted (by simp [pathArgs]) (looked_refl world)
  intro placed after looked stands
  apply host_of_rule
  intro host found
  apply quiet_then (stat_if_quiet _ host)
  intro st later quiet
  apply counted_rule
  intro last settled
  apply run_on_rule
  simp only [Program.spec_bind, Program.spec_pure]
  have seen := looked_trans looked (looked_trans (looked_any quiet) (looked_any settled))
  exact call_rule (permit_call seen (.truncate path length placed host ⟨stands, found⟩))
    fun _ _ => trivial

end Permitted

end Countinghouse.BrokerWarrant
