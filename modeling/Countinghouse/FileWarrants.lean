import Countinghouse.BrokerWarrant

/-!
What the operations on open files ask of the host, and with them every operation: all actions
of a call are permitted.
-/

namespace Countinghouse.FileWarrants

open HostTree HostEffects FileNamespace BrokerWorld FsBroker BrokerChecks BrokerWarrant
open HostCalls hiding rename link symlink truncate unlink openFile place
open Program (Prog)
open DiskQuota (Amount)

/-! Open files. -/
section Permitted

variable {b : Broker} {world now : World} {op : Op} {α : Type}

attribute [local simp] pathArgs

/-- The actions that need no warrant. -/
def Loose : Act → Prop
  | .call _ | .openFile _ _ _ | .onFile _ (.attrs _) | .remember _ _ => False
  | _ => True

abbrev LooseSpec (prog : Code α) (now : World) : Prop :=
  prog.Spec handle (fun _ act => Loose act) (fun _ _ => True) (fun _ _ => True) now

theorem loose_permit {act : Act} (loose : Loose act) : Permit b world op now act := by
  cases act with
  | call call => exact loose.elim
  | openFile path flags mode => exact loose.elim
  | remember dir hit => exact loose.elim
  | onFile handle act => cases act <;> first | exact loose.elim | trivial
  | _ => trivial

theorem quiet_loose {act : Act} (quiet : Quiet [] now act) : Loose act := by
  cases act with
  | remember dir hit => exact absurd quiet.1 (List.not_mem_nil)
  | call call => exact quiet.elim
  | openFile path flags mode => exact quiet.elim
  | onFile handle act => exact quiet.elim
  | _ => trivial

theorem loose_permitted {prog : Code α} (loose : LooseSpec prog now) : Permitted b world op prog now :=
  Program.spec_mono loose (fun _ _ free => loose_permit free) (fun _ _ _ => trivial) fun _ _ _ => trivial

/-- A loose program inside a loose one. -/
theorem loose_then {prog : Code α} {ok : α → World → Prop} {bad : NodeError → World → Prop}
    (loose : LooseSpec prog now) (ends : ∀ value after, ok value after)
    (fails : ∀ error after, bad error after) :
    prog.Spec handle (fun _ act => Loose act) ok bad now :=
  Program.spec_mono loose (fun _ _ free => free) (fun _ _ _ => ends _ _) fun _ _ _ => fails _ _

theorem fh_call_loose (syscall : String) (file : Nat) (act : FdAct) (plain : Loose (.onFile file act)) :
    LooseSpec (fhCall syscall file act) now := by
  simp only [LooseSpec, fhCall, Program.spec_bind, try_file_spec]
  refine ⟨plain, ?_⟩
  cases (now.onFile file act).1 <;> trivial

theorem fh_read_loose (file : Nat) (position : Option Nat) (length : Nat) :
    LooseSpec (fhRead file position length) now := by
  simp only [LooseSpec, fhRead, Program.spec_bind]
  apply loose_then (fh_call_loose _ file (.read position length) trivial)
  · intro reply after
    cases reply <;> trivial
  · intro error after
    trivial

theorem fh_read_at_loose (file : Nat) (position : Position) (length : Nat) :
    LooseSpec (fhReadAt file position length) now := by
  simp only [LooseSpec, fhReadAt, Program.spec_bind, refuse_if_spec]
  split
  · trivial
  · exact fh_read_loose file position.accepted length

theorem fh_write_loose (file : Nat) (position : Option Nat) (bytes : List UInt8) :
    LooseSpec (fhWrite file position bytes) now := by
  simp only [LooseSpec, fhWrite, Program.spec_bind]
  apply loose_then (fh_call_loose _ file (.write position bytes) trivial)
  · intro reply after
    cases reply <;> trivial
  · intro error after
    trivial

/-- The actions that leave the host as it is. -/
def Mild (now : World) : Act → Prop
  | .onFile _ .stat => True
  | .closeFile _ => True
  | act => Quiet [] now act

abbrev MildSpec (prog : Code α) (now : World) : Prop :=
  prog.Spec handle Mild (fun _ _ => True) (fun _ _ => True) now

theorem mild_loose {act : Act} (mild : Mild now act) : Loose act := by
  cases act with
  | onFile file act => cases act <;> first | exact mild.elim | trivial
  | call call => exact mild.elim
  | openFile path flags mode => exact mild.elim
  | remember dir hit => exact absurd mild.1 (List.not_mem_nil)
  | _ => trivial

theorem mild_host {act : Act} (mild : Mild now act) : (handle act now).2.host = now.host := by
  cases act with
  | onFile file act =>
      cases act with
      | stat =>
          simp only [handle, World.onFile]
          cases now.file file with
          | none => rfl
          | some opened =>
              cases failing : now.chance.fault with
              | none => simp [World.outcome, exec, failing, descriptor]; rfl
              | some fault => simp [World.outcome, exec, failing, refuse]; rfl
      | _ => exact mild.elim
  | closeFile file => rfl
  | remember dir hit => rfl
  | clearCache => rfl
  | call call => exact mild.elim
  | openFile path flags mode => exact mild.elim
  | fdAdd entry => rfl
  | fdDrop fd => rfl
  | setPos fd pos => rfl
  | reserve bytes entries => exact (@quiet_looked [] now (.reserve bytes entries) trivial).host
  | report rule target => exact (@quiet_looked [] now (.report rule target) trivial).host
  | _ => rfl

theorem mild_then {prog : Code α} {ok : α → World → Prop} {bad : NodeError → World → Prop}
    (mild : MildSpec prog now) (ends : ∀ value after, ok value after)
    (fails : ∀ error after, bad error after) : prog.Spec handle Mild ok bad now :=
  Program.spec_mono mild (fun _ _ free => free) (fun _ _ _ => ends _ _) fun _ _ _ => fails _ _

theorem mild_is_loose {prog : Code α} (mild : MildSpec prog now) : LooseSpec prog now :=
  Program.spec_mono mild (fun _ _ free => mild_loose free) (fun _ _ _ => trivial) fun _ _ _ => trivial

/-- A mild program in the middle of an operation. -/
theorem mild_mid {prog : Code α} {ok : α → World → Prop} (mild : MildSpec prog now)
    (ends : ∀ value after, after.host = now.host → ok value after) :
    prog.Spec handle (Permit b world op) ok (fun _ _ => True) now := by
  have steps : ∀ middle act, middle.host = now.host → Mild middle act →
      (handle act middle).2.host = now.host :=
    fun middle act same free => (mild_host free).trans same
  have kept := Program.spec_invariant steps rfl mild
  exact Program.spec_mono kept (fun _ _ both => loose_permit (mild_loose both.2))
    (fun value after both => ends value after both.1) fun _ _ _ => trivial

theorem fh_stat_mild (file : Nat) : MildSpec (fhStat file) now := by
  simp only [MildSpec, fhStat, fhCall, Program.spec_bind, try_file_spec]
  refine ⟨trivial, ?_⟩
  cases (now.onFile file .stat).1 with
  | error code => trivial
  | ok reply => cases reply <;> trivial

theorem fh_stat_loose (file : Nat) : LooseSpec (fhStat file) now := mild_is_loose (fh_stat_mild file)

theorem report_mild (rule : Rule) (target : Path) : MildSpec (report b rule target) now := by
  simp only [MildSpec, report, only_if_spec, add_report_spec]
  split
  · exact ⟨trivial, trivial⟩
  · trivial

theorem in_root_mild (file : Nat) (site : Site) (writes ok : Bool) :
    MildSpec (sameOpened.inRoot b file site writes ok) now := by
  simp only [MildSpec, sameOpened.inRoot, Program.spec_ite, Program.spec_bind, file_link_spec,
    Program.spec_pure]
  split
  · refine ⟨trivial, ?_⟩
    cases (now.file file).bind OpenFile.location with
    | none => trivial
    | some link =>
        simp only
        cases rootForReal b.ns link <;> trivial
  · trivial

theorem same_opened_mild (file : Nat) (site : Site) (writes : Bool) (ident : Ident) :
    MildSpec (sameOpened b file site writes ident) now := by
  cases ident with
  | parent real =>
      simp only [MildSpec, sameOpened, fsRealpath, Program.spec_bind, or_null_spec, try_realpath_spec]
      refine ⟨trivial, ?_⟩
      cases realpath now.host.names (dirname site.host) with
      | error code => exact in_root_mild _ _ _ _
      | ok real => exact in_root_mild _ _ _ _
  | node ino =>
      simp only [MildSpec, sameOpened, Program.spec_bind]
      apply mild_then (fh_stat_mild file)
      · intro st after
        exact in_root_mild _ _ _ _
      · intro error after
        trivial

theorem verify_opened_mild (file : Nat) (placed : Placed) (syscall : String) (writes : Bool) :
    MildSpec (verifyOpened b file placed syscall writes) now := by
  cases placed with
  | rooted site =>
      simp only [MildSpec, verifyOpened]
      cases site.ident with
      | none => trivial
      | some ident =>
          simp only [Program.spec_ite, Program.spec_bind, only_if_spec, fh_close_spec,
            Program.spec_throw, Program.spec_pure]
          split
          · apply mild_then (same_opened_mild file site writes ident)
            · intro ok after
              split
              · refine ⟨trivial, ?_⟩
                exact mild_then (report_mild _ _) (fun _ _ => trivial) fun _ _ => trivial
              · trivial
            · intro error after
              trivial
          · trivial
  | _ => trivial

theorem reserve_loose (bytes entries : Amount Int) (syscall : String) (placed : Placed) :
    LooseSpec (FsBroker.reserve bytes entries syscall placed) now := by
  simp only [LooseSpec, FsBroker.reserve, Program.spec_bind, quota_reserve_spec, refuse_if_spec]
  refine ⟨trivial, ?_⟩
  split <;> trivial

theorem open_rule {good : World → Act → Prop} {ok : Nat → World → Prop}
    {bad : NodeError → World → Prop} {path : Path} {flags : OpenFlags} {mode : Nat}
    (permit : good now (.openFile path flags mode))
    (ends : ∀ file, ok file (now.open path flags mode).2) (fails : ∀ error after, bad error after) :
    (fsOpen path flags mode).Spec handle good ok bad now := by
  simp only [fsOpen, Program.spec_bind, try_open_spec]
  refine ⟨permit, ?_⟩
  cases (now.open path flags mode).1 with
  | error code => exact fails _ _
  | ok file => exact ends file

/-- A loose program in the middle of an operation. -/
theorem loose_mid {prog : Code α} {ok : α → World → Prop} (loose : LooseSpec prog now)
    (ends : ∀ value after, ok value after) :
    prog.Spec handle (Permit b world op) ok (fun _ _ => True) now :=
  Program.spec_mono loose (fun _ _ free => loose_permit free) (fun _ _ _ => ends _ _) fun _ _ _ => trivial

theorem refuse_special_loose (file : Nat) (p : Placed) (st : Stats) :
    LooseSpec (refuseSpecial b file p st) now := by
  simp only [LooseSpec, refuseSpecial, only_if_spec, Program.spec_bind, fh_close_spec,
    Program.spec_throw]
  split
  · apply loose_then (mild_is_loose (report_mild _ _))
    · intro _ after
      split
      · exact ⟨trivial, trivial⟩
      · trivial
    · intro error after
      trivial
  · trivial

theorem truncate_opened_loose (file : Nat) (p : Placed) (flags : OpenFlags) (counted : Bool)
    (st : Stats) : LooseSpec (truncateOpened file p flags counted st) now := by
  simp only [LooseSpec, truncateOpened, only_if_spec, runOn, Program.spec_bind, Program.spec_catch,
    Program.spec_pure, Program.spec_throw, settle_spec]
  split
  · apply loose_then (fh_call_loose _ file (.truncate (some 0)) trivial)
    · intro reply after
      split
      · exact ⟨trivial, trivial⟩
      · trivial
    · intro error after
      trivial
  · trivial

theorem finish_open_loose (file : Nat) (p : Placed) (flags : OpenFlags) (counted : Bool) :
    LooseSpec (finishOpen b file p flags counted) now := by
  simp only [LooseSpec, finishOpen, Program.spec_bind, fd_set_spec]
  apply loose_then (mild_is_loose (verify_opened_mild file p "open" (writes flags)))
  · intro _ verified
    apply loose_then (fh_stat_loose file)
    · intro st after
      apply loose_then (refuse_special_loose file p st)
      · intro _ later
        apply loose_then (truncate_opened_loose file p flags counted st)
        · intro _ last
          exact ⟨trivial, trivial⟩
        · intro error last
          trivial
      · intro error later
        trivial
    · intro error after
      trivial
  · intro error verified
    trivial

theorem open_file_permitted {path : PathArg} {arg : FlagsArg} {mode : Nat} {ok : Nat → World → Prop}
    (asked : opens op = some (path, arg)) (member : path ∈ pathArgs op)
    (ends : ∀ fd after, ok fd after) :
    (FsBroker.openFile b path arg mode).Spec handle (Permit b world op) ok (fun _ _ => True) world := by
  simp only [FsBroker.openFile, openFlags, Program.spec_bind]
  cases read : numericFlags arg with
  | none => trivial
  | some flags =>
      simp only [Program.spec_pure]
      apply place_permitted member (looked_refl world)
      intro placed after looked stands
      cases found : placed.host with
      | none => trivial
      | some host =>
          simp only [Program.spec_bind, fd_size_spec, refuse_if_spec]
          refine ⟨trivial, ?_⟩
          split
          · trivial
          apply quiet_then (lstat_if_quiet _ host)
          intro before later quiet
          have opening : ∀ last, Looked [] later last →
              Permit b world op last (.openFile host { flags with trunc := false } mode) := by
            intro last reserved
            refine ⟨?_, .file op path arg flags placed host asked read ⟨stands, found⟩⟩
            rw [reserved.host, quiet.host, looked.host]
          have rest : ∀ last counted newEntry, Looked [] later last →
              (tryCatch (fsOpen host { flags with trunc := false } mode) fun e => do
                onlyIf newEntry (settle (some 0) (some 1) (some 0) (some 0))
                throw (rewrite e "open" placed none)).Spec handle (Permit b world op)
                (fun file after => (finishOpen b file placed flags counted).Spec handle
                  (Permit b world op) ok (fun _ _ => True) after) (fun _ _ => True) last := by
            intro last counted newEntry reserved
            simp only [Program.spec_catch, Program.spec_bind, only_if_spec, settle_spec,
              Program.spec_throw]
            apply open_rule (opening last reserved)
            · intro file
              exact loose_mid (finish_open_loose file placed flags counted) ends
            · intro error failed
              split
              · exact ⟨trivial, trivial⟩
              · trivial
          simp only [only_if_spec]
          split
          · simp only [FsBroker.reserve, Program.spec_bind, quota_reserve_spec, refuse_if_spec]
            refine ⟨trivial, ?_⟩
            split
            · trivial
            · exact rest _ _ _ (@quiet_looked [] later (.reserve (some 0) (some 1)) trivial)
          · exact rest _ _ _ (looked_refl later)

theorem open_permitted (path : PathArg) (flags : FlagsArg) (mode : Nat) :
    Permitted b world (.open path flags mode) (openOp b path flags mode) world := by
  simp only [Permitted, openOp, Program.spec_bind, Program.spec_pure]
  exact open_file_permitted rfl (by simp [pathArgs]) fun _ _ => trivial

theorem read_rest_loose (file : Nat) (p : Placed) (rounds : Nat) (bytes : List UInt8) :
    LooseSpec (readRest file p rounds bytes) now := by
  induction rounds generalizing bytes now with
  | zero => trivial
  | succ rounds ih =>
      simp only [LooseSpec, readRest, runOn, Program.spec_bind, Program.spec_catch, Program.spec_throw,
        Program.spec_ite, Program.spec_pure, refuse_if_spec]
      apply loose_then (fh_read_loose file none (64 * 1024))
      · intro piece after
        split
        · trivial
        split
        · trivial
        · exact ih (bytes ++ piece)
      · intro error after
        trivial

theorem read_file_permitted (path : PathArg) (flags : FlagsArg) :
    Permitted b world (.readFile path flags) (readFile b path flags) world := by
  simp only [Permitted, readFile, Program.spec_bind]
  apply open_file_permitted rfl (by simp [pathArgs])
  intro fd after
  simp only [fd_get_spec]
  refine ⟨trivial, ?_⟩
  cases after.entries.lookup fd with
  | none => trivial
  | some e =>
      apply loose_permitted
      simp only [LooseSpec, Program.spec_ensure, Program.spec_bind, Program.spec_pure, fd_delete_spec,
        fh_close_spec]
      apply loose_then (read_rest_loose e.handle e.placed (maxIo + 1) [])
      · intro bytes later
        exact ⟨trivial, trivial, trivial⟩
      · intro error later
        exact ⟨trivial, trivial, trivial⟩

theorem fd_entry_rule {good : World → Act → Prop} {ok : Entry → World → Prop} {fd : Nat}
    {syscall : String} (admits : ∀ act, Quiet [] now act → good now act)
    (ends : ∀ entry, (fd, entry) ∈ now.entries → ok entry now) :
    (fdEntry fd syscall).Spec handle good ok (fun _ _ => True) now := by
  simp only [fdEntry, Program.spec_bind, fd_has_spec, refuse_if_spec, fd_get_spec]
  refine ⟨admits _ trivial, ?_⟩
  split
  · trivial
  refine ⟨admits _ trivial, ?_⟩
  cases found : now.entries.lookup fd with
  | none => trivial
  | some entry => exact ends entry (mem_of_lookup found)

theorem fd_entry_loose {ok : Entry → World → Prop} {fd : Nat} {syscall : String}
    (ends : ∀ entry, ok entry now) :
    (fdEntry fd syscall).Spec handle (fun _ act => Loose act) ok (fun _ _ => True) now :=
  fd_entry_rule (fun _ quiet => quiet_loose quiet) fun entry _ => ends entry

theorem close_loose (fd : Nat) : LooseSpec (close fd) now := by
  simp only [LooseSpec, close, Program.spec_bind, fd_delete_spec, fh_close_spec, Program.spec_pure]
  apply fd_entry_loose
  intro entry
  exact ⟨trivial, trivial, trivial⟩

theorem size_if_loose (counted : Bool) (file : Nat) : LooseSpec (sizeIf counted file) now := by
  simp only [LooseSpec, sizeIf, Program.spec_ite, Program.spec_bind, Program.spec_pure]
  split
  · exact loose_then (fh_stat_loose file) (fun _ _ => trivial) fun _ _ => trivial
  · trivial

theorem write_loose (fd : Nat) (bytes : List UInt8) (position : Position) :
    LooseSpec (write b fd bytes position) now := by
  simp only [LooseSpec, write, Program.spec_bind, refuse_if_spec, only_if_spec, Program.spec_catch,
    settle_spec, Program.spec_throw, set_pos_spec, Program.spec_pure]
  apply fd_entry_loose
  intro e
  split
  · trivial
  apply loose_then (size_if_loose (e.counts && b.counting) e.handle)
  · intro size sized
    split
    · apply loose_then (reserve_loose _ _ _ _)
      · intro _ reserved
        apply loose_then (fh_write_loose _ _ _)
        · intro count wrote
          refine ⟨trivial, ?_⟩
          split
          · exact ⟨trivial, trivial⟩
          · trivial
        · intro error failed
          exact ⟨trivial, trivial⟩
      · intro error reserved
        trivial
    · apply loose_then (fh_write_loose _ _ _)
      · intro count wrote
        split
        · exact ⟨trivial, trivial⟩
        · trivial
      · intro error failed
        trivial
  · intro error sized
    trivial

theorem write_rest_loose (fd rounds : Nat) (bytes : List UInt8) :
    LooseSpec (writeRest b fd rounds bytes) now := by
  induction rounds generalizing bytes now with
  | zero => trivial
  | succ rounds ih =>
      simp only [LooseSpec, writeRest, Program.spec_ite, Program.spec_bind, Program.spec_pure]
      split
      · trivial
      apply loose_then (write_loose fd bytes .omitted)
      · intro count after
        split
        · trivial
        · exact ih (bytes.drop count)
      · intro error after
        trivial

theorem write_file_permitted (path : PathArg) (bytes : List UInt8) (flags : FlagsArg) (mode : Nat) :
    Permitted b world (.writeFile path bytes flags mode) (writeFile b path bytes flags mode) world := by
  simp only [Permitted, writeFile, Program.spec_bind, refuse_if_spec]
  split
  · trivial
  apply open_file_permitted rfl (by simp [pathArgs])
  intro fd after
  apply loose_permitted
  simp only [LooseSpec, Program.spec_ensure, Program.spec_bind, Program.spec_pure]
  have closing : ∀ now, LooseSpec (close fd) now := fun now => close_loose fd
  apply loose_then (write_rest_loose fd bytes.length bytes)
  · intro _ later
    exact closing later
  · intro error later
    exact closing later

theorem read_loose (fd : Nat) (length : Amount Int) (position : Position) :
    LooseSpec (read fd length position) now := by
  simp only [LooseSpec, FsBroker.read, Program.spec_bind]
  apply fd_entry_loose
  intro e
  cases length with
  | none => trivial
  | some size =>
      simp only [Program.spec_bind, refuse_if_spec, runOn, Program.spec_catch, Program.spec_throw,
        only_if_spec, set_pos_spec, Program.spec_pure]
      split
      · trivial
      apply loose_then (fh_read_at_loose _ _ _)
      · intro bytes after
        split
        · exact ⟨trivial, trivial⟩
        · trivial
      · intro error after
        trivial

theorem fstat_loose (fd : Nat) : LooseSpec (fstat fd) now := by
  simp only [LooseSpec, fstat, Program.spec_bind, Program.spec_pure]
  apply fd_entry_loose
  intro e
  exact loose_then (fh_stat_loose _) (fun _ _ => trivial) fun _ _ => trivial

theorem ftruncate_loose (fd : Nat) (length : Length) : LooseSpec (ftruncate b fd length) now := by
  simp only [LooseSpec, ftruncate, Program.spec_bind, Program.spec_ite, Program.spec_catch, settle_spec,
    Program.spec_throw, Program.spec_pure]
  apply fd_entry_loose
  intro e
  split
  · apply loose_then (fh_stat_loose _)
    · intro st after
      apply loose_then (reserve_loose _ _ _ _)
      · intro _ reserved
        apply loose_then (fh_call_loose _ _ (.truncate length.accepted) trivial)
        · intro reply done
          exact ⟨trivial, trivial⟩
        · intro error done
          exact ⟨trivial, trivial⟩
      · intro error reserved
        trivial
    · intro error after
      trivial
  · exact loose_then (fh_call_loose _ _ (.truncate length.accepted) trivial) (fun _ _ => trivial)
      fun _ _ => trivial

theorem sync_loose (syscall : String) (fd : Nat) : LooseSpec (onDescriptor syscall .sync fd) now := by
  simp only [LooseSpec, onDescriptor, Program.spec_bind, Program.spec_pure]
  apply fd_entry_loose
  intro e
  exact loose_then (fh_call_loose _ _ .sync trivial) (fun _ _ => trivial) fun _ _ => trivial

theorem descriptor_edit_permitted {syscall : String} {edit : AttrEdit} {fd : Nat}
    (asked : descriptorEdit op = some fd) :
    Permitted b world op (onDescriptor syscall (.attrs edit) fd) world := by
  simp only [Permitted, onDescriptor, Program.spec_bind, Program.spec_pure]
  apply fd_entry_rule (fun _ quiet => quiet_permit quiet)
  intro e member
  simp only [fhCall, Program.spec_bind, try_file_spec]
  refine ⟨⟨fd, e, asked, member, rfl, rfl⟩, ?_⟩
  cases (world.onFile e.handle (.attrs edit)).1 <;> trivial

/-! Copying. -/

theorem write_all_loose (file rounds : Nat) (bytes : List UInt8) :
    LooseSpec (writeAll file rounds bytes) now := by
  induction rounds generalizing bytes now with
  | zero => trivial
  | succ rounds ih =>
      simp only [LooseSpec, writeAll, Program.spec_ite, Program.spec_bind, Program.spec_pure]
      split
      · trivial
      apply loose_then (fh_write_loose _ _ _)
      · intro count after
        exact ih (bytes.drop count)
      · intro error after
        trivial

theorem copy_pieces_loose (src dst rounds : Nat) : LooseSpec (copyPieces src dst rounds) now := by
  induction rounds generalizing now with
  | zero => trivial
  | succ rounds ih =>
      simp only [LooseSpec, copyPieces, Program.spec_ite, Program.spec_bind, Program.spec_pure]
      apply loose_then (fh_read_loose _ _ _)
      · intro piece after
        split
        · trivial
        apply loose_then (write_all_loose dst piece.length piece)
        · intro _ later
          exact ih
        · intro error later
          trivial
      · intro error after
        trivial

/-- Opening a file without creating it changes nothing on the host. -/
theorem open_existing_host {path : Path} {flags : OpenFlags} {mode : Nat} (plain : flags.creat = false) :
    (now.open path flags mode).2.host = now.host := by
  have still : ∀ outcome : Outcome, outcome.1.changes = [] → outcome.1.edits = [] →
      outcome.1.created = 0 → now.host.apply outcome.1 = now.host := by
    intro outcome names inodes fresh
    simp [Host.apply, names, inodes, fresh]
  have quiet : now.host.apply (now.outcome (.openFile path flags mode)).1 = now.host := by
    unfold World.outcome
    cases failing : now.chance.fault with
    | some fault => simp only [exec, failing]; exact still _ rfl rfl rfl
    | none =>
        simp only [exec, failing, HostCalls.openFile, plain, Bool.false_and, Bool.false_eq_true, if_false]
        split
        · exact still _ rfl rfl rfl
        split
        · unfold openExisting
          split
          · exact still _ rfl rfl rfl
          split
          · exact still _ rfl rfl rfl
          split
          · exact still _ rfl rfl rfl
          · exact still _ rfl rfl rfl
        · exact still _ rfl rfl rfl
        · exact still _ rfl rfl rfl
  unfold World.open
  simp only
  split
  · exact quiet
  · exact quiet
  · exact quiet

theorem copy_into_permitted {source dest : PathArg} {excl : Bool} {origin goal : Placed} {src : Nat}
    (kept : now.host = world.host) (stands : Stands b world dest .w true goal) :
    Permitted b world (.copyFile source dest excl) (copyInto b excl origin goal src) now := by
  simp only [Permitted, copyInto, Program.spec_bind, refuse_if_spec]
  apply mild_mid (fh_stat_mild src)
  intro st after seen
  split
  · trivial
  apply mild_mid (verify_opened_mild src origin "copyfile" false)
  intro _ verified same
  apply host_of_rule
  intro host found
  apply run_on_rule
  apply open_rule
  · exact ⟨same.trans (seen.trans kept), .copyDest source dest excl goal host ⟨stands, found⟩⟩
  · intro dst
    apply loose_permitted
    simp only [LooseSpec, Program.spec_ensure, Program.spec_bind, fh_close_spec]
    apply loose_then (mild_is_loose (verify_opened_mild dst goal "copyfile" true))
    · intro _ later
      apply loose_then (fh_call_loose _ dst (.truncate (some 0)) trivial)
      · intro reply emptied
        exact loose_then (copy_pieces_loose src dst (st.size + 1)) (fun _ _ => ⟨trivial, trivial⟩)
          fun _ _ => ⟨trivial, trivial⟩
      · intro error emptied
        exact ⟨trivial, trivial⟩
    · intro error later
      exact ⟨trivial, trivial⟩
  · intro error failed
    trivial

theorem copy_permitted {source dest : PathArg} {excl : Bool} {origin goal : Placed}
    (kept : now.host = world.host) (originStands : Stands b world source .r true origin)
    (goalStands : Stands b world dest .w true goal) :
    Permitted b world (.copyFile source dest excl) (copy b excl origin goal) now := by
  simp only [Permitted, copy, Program.spec_bind, Program.spec_ensure, Program.spec_pure, fh_close_spec]
  apply run_on_rule
  simp only [Program.spec_bind]
  apply host_of_rule
  intro host found
  apply open_rule
  · exact ⟨kept, .copySource source dest excl origin host ⟨originStands, found⟩⟩
  · intro src
    have same : (now.open host {} 0).2.host = world.host := (open_existing_host rfl).trans kept
    exact Program.spec_mono (copy_into_permitted same goalStands) (fun _ _ permit => permit)
      (fun _ _ _ => ⟨trivial, trivial⟩) fun _ _ _ => ⟨trivial, trivial⟩
  · intro error failed
    trivial

theorem copy_file_permitted (source dest : PathArg) (excl : Bool) :
    Permitted b world (.copyFile source dest excl) (copyFile b source dest excl) world := by
  simp only [Permitted, copyFile, Program.spec_bind, Program.spec_ite]
  apply place_permitted (by simp [pathArgs]) (looked_refl world)
  intro origin middle early originStands
  apply place_permitted (by simp [pathArgs]) early
  intro goal after looked goalStands
  split
  · have measuring : (orNull (do
        let sourceHost ← hostOf origin
        fsStat sourceHost)).Spec handle (Quiet []) (fun _ _ => True) (fun _ _ => True) after := by
      simp only [or_null_spec, Program.spec_bind]
      apply host_of_rule
      intro host found
      simp only [fsStat, Program.spec_bind, try_stat_spec]
      refine ⟨trivial, ?_⟩
      cases lookAt after.host host true <;> trivial
    apply quiet_then measuring
    intro src measured quiet
    apply host_of_rule
    intro host found
    apply quiet_then (lstat_or_null_quiet host)
    intro dst later still
    apply counted_rule
    intro last settled
    refine copy_permitted ?_ originStands goalStands
    rw [settled.host, still.host, quiet.host, looked.host]
  · exact copy_permitted looked.host originStands goalStands

/-- Every action of every operation is permitted. -/
theorem run_op_permitted (op : Op) : Permitted b world op (runOp b op) world := by
  cases op with
  | access path => exact access_permitted path
  | exist path => exact exist_permitted path
  | stat path => exact stat_with_permitted rfl (by simp [pathArgs])
  | lstat path => exact stat_with_permitted rfl (by simp [pathArgs])
  | realpath path => exact realpath_permitted path
  | readlink path => exact readlink_permitted path
  | readdir path recursive types => exact readdir_permitted path recursive types
  | statfs path => exact statfs_permitted path
  | mkdir path recursive mode => exact mkdir_permitted path recursive mode
  | mkdtemp path => exact mkdtemp_permitted path
  | rmdir path => exact rmdir_permitted path
  | rm path recursive force => exact removing_permitted rfl (by simp [pathArgs])
  | unlink path => exact removing_permitted rfl (by simp [pathArgs])
  | rename source dest => exact rename_permitted source dest
  | copyFile source dest excl => exact copy_file_permitted source dest excl
  | link source dest => exact link_permitted source dest
  | symlink target path => exact symlink_permitted target path
  | chmod path mode => exact attrs_with_permitted rfl (by simp [pathArgs])
  | chown path uid gid => exact attrs_with_permitted rfl (by simp [pathArgs])
  | lchown path uid gid => exact attrs_with_permitted rfl (by simp [pathArgs])
  | utimes path atime mtime => exact attrs_with_permitted rfl (by simp [pathArgs])
  | lutimes path atime mtime => exact attrs_with_permitted rfl (by simp [pathArgs])
  | truncate path length => exact truncate_permitted path length
  | «open» path flags mode => exact open_permitted path flags mode
  | readFile path flags => exact read_file_permitted path flags
  | writeFile path bytes flags mode => exact write_file_permitted path bytes flags mode
  | close fd => exact loose_permitted (close_loose fd)
  | read fd length position => exact loose_permitted (read_loose fd length position)
  | write fd bytes position =>
      apply loose_permitted
      simp only [LooseSpec, runOp, writeOp, Program.spec_bind, Program.spec_pure]
      exact write_loose fd bytes position
  | fstat fd => exact loose_permitted (fstat_loose fd)
  | ftruncate fd length => exact loose_permitted (ftruncate_loose fd length)
  | fsync fd => exact loose_permitted (sync_loose "fsync" fd)
  | fdatasync fd => exact loose_permitted (sync_loose "fdatasync" fd)
  | fchmod fd mode => exact descriptor_edit_permitted rfl
  | fchown fd uid gid => exact descriptor_edit_permitted rfl
  | futimes fd atime mtime => exact descriptor_edit_permitted rfl

/-- The world an operation runs in: an exclusive one starts with an empty cache. -/
def started (op : Op) (world : World) : World :=
  if lockOf op = some .exclusive then { world with cache := [] } else world

theorem started_host (op : Op) (world : World) : (started op world).host = world.host := by
  unfold started
  split <;> rfl

theorem started_files (op : Op) (world : World) : (started op world).files = world.files := by
  unfold started
  split <;> rfl

theorem started_entries (op : Op) (world : World) : (started op world).entries = world.entries := by
  unfold started
  split <;> rfl

theorem handle_one_permitted (op : Op) (world : World) :
    (handleOne b op).Spec handle (Permit b (started op world) op) (fun _ _ => True) (fun _ _ => True)
      world := by
  simp only [handleOne, Program.spec_bind, is_closed_spec, refuse_if_spec]
  refine ⟨trivial, ?_⟩
  split
  · trivial
  cases lock : lockOf op with
  | none => trivial
  | some held =>
      simp only [Program.spec_bind, only_if_spec, cache_clear_spec]
      by_cases alone : held = .exclusive
      · have begun : started op world = { world with cache := [] } := by simp [started, lock, alone]
        simp only [alone, decide_true, if_true]
        rw [begun]
        exact ⟨trivial, run_op_permitted op⟩
      · have begun : started op world = world := by simp [started, lock, alone]
        simp only [alone, decide_false, Bool.false_eq_true, if_false]
        rw [begun]
        exact run_op_permitted op

end Permitted

end Countinghouse.FileWarrants
