import Countinghouse.FsBroker
import Countinghouse.HostEffects

/-!
What the broker knows when it has placed a path. `Looked` says what its own looking
around leaves unchanged, `Cleared` what a check of the host has seen, and `Stands`
what `place` answers. A cached real path is taken at its word, so `Cleared` needs the
entry of the path's directory to be true.
-/

namespace Countinghouse.BrokerChecks

open HostTree HostCalls HostEffects FileNamespace BrokerWorld FsBroker
open Program (Prog)
open DiskQuota (Amount)

/-! What each action of the broker asks and answers. -/
section Actions

variable {good : World → Act → Prop} {bad : NodeError → World → Prop} {world : World}

@[simp] theorem date_now_spec {ok : Nat → World → Prop} :
    dateNow.Spec handle good ok bad world ↔ good world .now ∧ ok world.clock world := Iff.rfl

@[simp] theorem cache_get_spec {ok : Option CacheHit → World → Prop} (dir : Path) :
    (cacheGet dir).Spec handle good ok bad world ↔
      good world (.cached dir) ∧ ok (world.cache.lookup dir) world := Iff.rfl

@[simp] theorem cache_set_spec {ok : Unit → World → Prop} (dir : Path) (hit : CacheHit) :
    (cacheSet dir hit).Spec handle good ok bad world ↔
      good world (.remember dir hit) ∧ ok () (handle (.remember dir hit) world).2 := Iff.rfl

@[simp] theorem cache_clear_spec {ok : Unit → World → Prop} :
    cacheClear.Spec handle good ok bad world ↔
      good world .clearCache ∧ ok () { world with cache := [] } := Iff.rfl

@[simp] theorem is_closed_spec {ok : Bool → World → Prop} :
    isClosed.Spec handle good ok bad world ↔ good world .isClosed ∧ ok world.closed world := Iff.rfl

@[simp] theorem fd_has_spec {ok : Bool → World → Prop} (fd : Nat) :
    (fdHas fd).Spec handle good ok bad world ↔
      good world (.fdOpen fd) ∧ ok (world.fds.contains fd) world := Iff.rfl

@[simp] theorem fd_size_spec {ok : Nat → World → Prop} :
    fdSize.Spec handle good ok bad world ↔ good world .fdCount ∧ ok world.fds.length world := Iff.rfl

@[simp] theorem fd_get_spec {ok : Option Entry → World → Prop} (fd : Nat) :
    (fdGet fd).Spec handle good ok bad world ↔
      good world (.entryOf fd) ∧ ok (world.entries.lookup fd) world := Iff.rfl

@[simp] theorem fd_set_spec {ok : Nat → World → Prop} (entry : Entry) :
    (fdSet entry).Spec handle good ok bad world ↔
      good world (.fdAdd entry) ∧ ok world.nextFd (handle (.fdAdd entry) world).2 := Iff.rfl

@[simp] theorem fd_delete_spec {ok : Unit → World → Prop} (fd : Nat) :
    (fdDelete fd).Spec handle good ok bad world ↔
      good world (.fdDrop fd) ∧ ok () (handle (.fdDrop fd) world).2 := Iff.rfl

@[simp] theorem set_pos_spec {ok : Unit → World → Prop} (fd pos : Nat) :
    (setPos fd pos).Spec handle good ok bad world ↔
      good world (.setPos fd pos) ∧ ok () (handle (.setPos fd pos) world).2 := Iff.rfl

@[simp] theorem quota_reserve_spec {ok : Bool → World → Prop} (bytes entries : Amount Int) :
    (quotaReserve bytes entries).Spec handle good ok bad world ↔
      good world (.reserve bytes entries) ∧
        ok (handle (.reserve bytes entries) world).1 (handle (.reserve bytes entries) world).2 := Iff.rfl

@[simp] theorem settle_spec {ok : Unit → World → Prop} (rb re ab ae : Amount Int) :
    (settle rb re ab ae).Spec handle good ok bad world ↔
      good world (.settle rb re ab ae) ∧ ok () (handle (.settle rb re ab ae) world).2 := Iff.rfl

@[simp] theorem add_report_spec {ok : Unit → World → Prop} (rule : Rule) (target : Path) :
    (addReport rule target).Spec handle good ok bad world ↔
      good world (.report rule target) ∧ ok () (world.report rule target) := Iff.rfl

@[simp] theorem try_realpath_spec {ok : Except Errno Path → World → Prop} (path : Path) :
    (tryRealpath path).Spec handle good ok bad world ↔
      good world (.realpath path) ∧ ok (realpath world.host.names path) world.passed := Iff.rfl

@[simp] theorem try_lstat_spec {ok : Except Errno Stats → World → Prop} (path : Path) :
    (tryLstat path).Spec handle good ok bad world ↔
      good world (.lstat path) ∧ ok (lookAt world.host path false) world.passed := Iff.rfl

@[simp] theorem try_stat_spec {ok : Except Errno Stats → World → Prop} (path : Path) :
    (tryStat path).Spec handle good ok bad world ↔
      good world (.stat path) ∧ ok (lookAt world.host path true) world.passed := Iff.rfl

@[simp] theorem try_measure_spec {ok : Except Errno Usage → World → Prop} (path : Path) :
    (tryMeasure path).Spec handle good ok bad world ↔
      good world (.measure path) ∧ ok (BrokerWorld.measure world.host path) world.passed := Iff.rfl

@[simp] theorem try_call_spec {ok : Except Errno Reply → World → Prop} (call : Call) :
    (tryCall call).Spec handle good ok bad world ↔
      good world (.call call) ∧
        ok (world.outcome call).2 (world.applied (world.outcome call).1).passed := Iff.rfl

@[simp] theorem try_open_spec {ok : Except Errno Nat → World → Prop} (path : Path) (flags : OpenFlags)
    (mode : Nat) :
    (tryOpen path flags mode).Spec handle good ok bad world ↔
      good world (.openFile path flags mode) ∧
        ok (world.open path flags mode).1 (world.open path flags mode).2 := Iff.rfl

@[simp] theorem try_file_spec {ok : Except Errno Reply → World → Prop} (file : Nat) (act : FdAct) :
    (tryFile file act).Spec handle good ok bad world ↔
      good world (.onFile file act) ∧ ok (world.onFile file act).1 (world.onFile file act).2 := Iff.rfl

@[simp] theorem file_link_spec {ok : Option Path → World → Prop} (file : Nat) :
    (fileLink file).Spec handle good ok bad world ↔
      good world (.fileLink file) ∧ ok ((world.file file).bind OpenFile.location) world.passed := Iff.rfl

@[simp] theorem fh_close_spec {ok : Unit → World → Prop} (file : Nat) :
    (fhClose file).Spec handle good ok bad world ↔
      good world (.closeFile file) ∧ ok () (handle (.closeFile file) world).2 := Iff.rfl

variable {α : Type}

@[simp] theorem raised_ok_spec {ok : α → World → Prop} (syscall : String) (value : α) :
    (raised syscall (.ok value)).Spec handle good ok bad world ↔ ok value world := Iff.rfl

@[simp] theorem raised_error_spec {ok : α → World → Prop} (syscall : String) (code : Errno) :
    (raised syscall (.error code) : Code α).Spec handle good ok bad world ↔ bad (hostError syscall code) world :=
  Iff.rfl

@[simp] theorem refuse_if_spec {ok : Unit → World → Prop} (refused : Bool) (error : NodeError) :
    (refuseIf refused error).Spec handle good ok bad world ↔
      if refused then bad error world else ok () world := by
  simp [refuseIf]

@[simp] theorem only_if_spec {ok : Unit → World → Prop} (condition : Bool) (code : Code Unit) :
    (onlyIf condition code).Spec handle good ok bad world ↔
      if condition then code.Spec handle good ok bad world else ok () world := by
  simp [onlyIf]

@[simp] theorem or_null_spec {ok : Option α → World → Prop} (code : Code α) :
    (orNull code).Spec handle good ok bad world ↔
      code.Spec handle good (fun value after => ok (some value) after) (fun _ after => ok none after)
        world := by
  simp [orNull]

end Actions

/-! Looking around. -/
section Looking

/-- The cache entries of a directory tell its real path. -/
def TrueFor (world : World) (dir : Path) : Prop :=
  ∀ hit, (dir, hit) ∈ world.cache → realpath world.host.names dir = .ok hit.real

/-- Between two worlds only the cache, the quota, the reports and the time differ, and
the cache gained only true entries of `dirs`. -/
structure Looked (dirs : List Path) (before after : World) : Prop where
  host : after.host = before.host
  files : after.files = before.files
  nextHandle : after.nextHandle = before.nextHandle
  fds : after.fds = before.fds
  entries : after.entries = before.entries
  nextFd : after.nextFd = before.nextFd
  cache : ∀ entry ∈ after.cache, entry ∈ before.cache ∨
    entry.1 ∈ dirs ∧ realpath before.host.names entry.1 = .ok entry.2.real

/-- The actions that only look; the cache is told the truth. -/
def Quiet (dirs : List Path) (world : World) : Act → Prop
  | .remember dir hit => dir ∈ dirs ∧ realpath world.host.names dir = .ok hit.real
  | .now | .isClosed | .cached _ | .realpath _ | .lstat _ | .stat _ | .measure _ | .fileLink _
  | .fdOpen _ | .fdCount | .entryOf _ | .reserve _ _ | .settle _ _ _ _ | .report _ _ => True
  | _ => False

variable {dirs : List Path}

theorem looked_refl (world : World) : Looked dirs world world where
  host := rfl
  files := rfl
  nextHandle := rfl
  fds := rfl
  entries := rfl
  nextFd := rfl
  cache := fun _ member => Or.inl member

theorem looked_trans {first second third : World} (early : Looked dirs first second)
    (late : Looked dirs second third) : Looked dirs first third where
  host := late.host.trans early.host
  files := late.files.trans early.files
  nextHandle := late.nextHandle.trans early.nextHandle
  fds := late.fds.trans early.fds
  entries := late.entries.trans early.entries
  nextFd := late.nextFd.trans early.nextFd
  cache := by
    intro entry member
    rcases late.cache entry member with old | ⟨among, true_then⟩
    · exact early.cache entry old
    · rw [early.host] at true_then
      exact Or.inr ⟨among, true_then⟩

theorem looked_mono {more : List Path} {before after : World} (subset : dirs ⊆ more)
    (looked : Looked dirs before after) : Looked more before after :=
  { looked with
    cache := fun entry member =>
      (looked.cache entry member).imp id fun found => ⟨subset found.1, found.2⟩ }

/-- A true directory stays true while the broker only looks. -/
theorem looked_true {before after : World} {dir : Path} (looked : Looked dirs before after)
    (told : TrueFor before dir) : TrueFor after dir := by
  intro hit member
  rw [looked.host]
  rcases looked.cache _ member with old | ⟨_, found⟩
  · exact told hit old
  · exact found

theorem mem_remember {cache : List (Path × CacheHit)} {dir : Path} {hit : CacheHit}
    {entry : Path × CacheHit} (member : entry ∈ BrokerWorld.remember cache dir hit) :
    entry = (dir, hit) ∨ entry ∈ cache := by
  have kept : ∀ other ∈ (if rpCacheMax ≤ cache.length then cache.drop 1 else cache), other ∈ cache := by
    intro other among
    split at among
    · exact List.mem_of_mem_drop among
    · exact among
  unfold BrokerWorld.remember at member
  generalize (if rpCacheMax ≤ cache.length then cache.drop 1 else cache) = left at kept member
  simp only at member
  split at member
  · obtain ⟨other, among, same⟩ := List.mem_map.mp member
    split at same
    · exact Or.inl same.symm
    · exact Or.inr (same ▸ kept other among)
  · rcases List.mem_append.mp member with among | last
    · exact Or.inr (kept entry among)
    · exact Or.inl (List.mem_singleton.mp last)

theorem quiet_looked {world : World} {act : Act} (quiet : Quiet dirs world act) :
    Looked dirs world (handle act world).2 := by
  cases act with
  | remember dir hit =>
      refine { (looked_refl world : Looked dirs world world) with cache := ?_, host := rfl }
      intro entry member
      rcases mem_remember member with rfl | old
      · exact Or.inr quiet
      · exact Or.inl old
  | reserve bytes entries =>
      simp only [handle]
      split
      · exact { (looked_refl world : Looked dirs world world) with host := rfl }
      · exact looked_refl world
  | report rule target =>
      simp only [handle, World.report]
      split
      · exact looked_refl world
      · exact { (looked_refl world : Looked dirs world world) with host := rfl }
  | clearCache => exact quiet.elim
  | call call => exact quiet.elim
  | openFile path flags mode => exact quiet.elim
  | onFile handle act => exact quiet.elim
  | closeFile handle => exact quiet.elim
  | fdAdd entry => exact quiet.elim
  | fdDrop fd => exact quiet.elim
  | setPos fd pos => exact quiet.elim
  | _ => exact { (looked_refl world : Looked dirs world world) with host := rfl }

variable {good : World → Act → Prop} {α : Type} {ok : α → World → Prop} {bad : NodeError → World → Prop}

/-- A program whose actions all look around changes nothing else. -/
theorem quiet_rule {prog : Code α} {world : World}
    (quiet : prog.Spec handle (Quiet dirs) (fun _ _ => True) (fun _ _ => True) world)
    (admits : ∀ world act, Quiet dirs world act → good world act)
    (ends : ∀ value after, Looked dirs world after → ok value after)
    (fails : ∀ error after, Looked dirs world after → bad error after) :
    prog.Spec handle good ok bad world := by
  have steps : ∀ middle act, Looked dirs world middle → Quiet dirs middle act →
      Looked dirs world (handle act middle).2 :=
    fun middle act looked still => looked_trans looked (quiet_looked still)
  have kept := Program.spec_invariant steps (looked_refl world) quiet
  exact Program.spec_mono kept (fun middle act both => admits middle act both.2)
    (fun value after both => ends value after both.1) (fun error after both => fails error after both.1)

end Looking

/-! Placing a path. -/
section Placing

variable {good : World → Act → Prop} {bad : NodeError → World → Prop}

theorem looked_passed {dirs : List Path} (world : World) : Looked dirs world world.passed :=
  { (looked_refl world : Looked dirs world world) with host := rfl }

theorem fresh_realpath_rule {dirs : List Path} {dir : Path} {now : Nat} {world : World}
    {ok : Path → World → Prop} (among : dir ∈ dirs)
    (admits : ∀ world act, Quiet dirs world act → good world act)
    (ends : ∀ real after, Looked dirs world after → realpath world.host.names dir = .ok real → ok real after)
    (fails : ∀ error after, Looked dirs world after →
      (∀ real, realpath world.host.names dir ≠ .ok real) → bad error after) :
    (freshRealpath dir now).Spec handle good ok bad world := by
  simp only [freshRealpath, fsRealpath, Program.spec_bind, try_realpath_spec]
  refine ⟨admits _ _ trivial, ?_⟩
  cases found : realpath world.host.names dir with
  | error code =>
      simp only [raised_error_spec]
      exact fails _ _ (looked_passed world) (by simp [found])
  | ok real =>
      simp only [raised_ok_spec, cache_set_spec, Program.spec_pure]
      have filled : Quiet dirs world.passed (.remember dir ⟨real, now⟩) := ⟨among, found⟩
      refine ⟨admits _ _ filled, ends real _ ?_ found⟩
      exact looked_trans (looked_passed world) (quiet_looked filled)

theorem cached_realpath_rule {dirs : List Path} {dir : Path} {world : World}
    {ok : Path → World → Prop} (among : dir ∈ dirs)
    (admits : ∀ world act, Quiet dirs world act → good world act)
    (ends : ∀ real after, Looked dirs world after →
      (TrueFor world dir → realpath world.host.names dir = .ok real) → ok real after)
    (fails : ∀ error after, Looked dirs world after →
      (∀ real, realpath world.host.names dir ≠ .ok real) → bad error after) :
    (cachedRealpath dir).Spec handle good ok bad world := by
  have fresh : ∀ now, (freshRealpath dir now).Spec handle good ok bad world := fun now =>
    fresh_realpath_rule among admits (fun real after looked found => ends real after looked fun _ => found)
      fails
  simp only [cachedRealpath, Program.spec_bind, date_now_spec, cache_get_spec]
  refine ⟨admits _ _ trivial, admits _ _ trivial, ?_⟩
  cases hit : world.cache.lookup dir with
  | none => exact fresh _
  | some entry =>
      simp only [Program.spec_ite, Program.spec_pure]
      split
      · exact ends _ _ (looked_refl world) fun told => told entry (mem_of_lookup hit)
      · exact fresh _

/-- What the check of a site has seen of the host. -/
inductive Cleared (ns : Namespace) (names : Names) (site : Site) (follow : Bool) : Prop where
  /-- Its directory has no real path, so the operation itself is left to fail. -/
  | unseen (lost : ∀ real, realpath names (dirname site.host) ≠ .ok real)
      (own : site.root = site.within)
  /-- The name itself, in the real path of its directory. -/
  | name (direct : follow = false) (inner : site.virtual ≠ site.within.vroot) (real : Path)
      (parent : realpath names (dirname site.host) = .ok real)
      (holds : rootForReal ns (inParent real site.host) = some site.root)
  | object (followed : follow = true ∨ site.virtual = site.within.vroot) (location : Path)
      (found : realpath names site.host = .ok location) (holds : rootForReal ns location = some site.root)
  /-- Nothing is where the path leads; its name, perhaps a link, was looked at. -/
  | missing (followed : follow = true ∨ site.virtual = site.within.vroot)
      (lost : realpath names site.host = .error .ENOENT) (real : Path)
      (parent : realpath names (dirname site.host) = .ok real)
      (holds : rootForReal ns (inParent real site.host) = some site.root)

theorem node_of_located {names : Names} {location : Path} (located : Located names location) :
    ∃ node, nodeAt names location = some node := by
  unfold nodeAt
  by_cases root : location = []
  · exact ⟨_, by rw [root]; rfl⟩
  · rcases located_present located with same | present
    · exact absurd same root
    · obtain ⟨node, found⟩ := Option.ne_none_iff_exists'.mp present
      exact ⟨node, by simp [root, found]⟩

/-- A real location can be looked at. -/
theorem look_at_real {host : Host} {path location : Path}
    (found : realpath host.names path = .ok location) : ∃ st, lookAt host location true = .ok st := by
  have located := realpath_located found
  obtain ⟨node, present⟩ := node_of_located located
  refine ⟨⟨node, host.inodes node.ino, nlink host.names node.ino⟩, ?_⟩
  simp only [lookAt, HostCalls.place, if_true, located_realpath located, present]

theorem look_in_parent {host : Host} {dir real : Path} (name : Name)
    (parent : realpath host.names dir = .ok real) :
    lookAt host (real ++ [name]) false =
      if isDir host.names real then
        match lookup host.names (real ++ [name]) with
        | none => .error .ENOENT
        | some node => .ok ⟨node, host.inodes node.ino, nlink host.names node.ino⟩
      else .error .ENOTDIR := by
  obtain ⟨left, walked⟩ := realpath_ok_iff.mp (located_realpath (realpath_located parent))
  have leaves : leaf host.names (real ++ [name]) =
      if isDir host.names real then .ok (real ++ [name]) else .error .ENOTDIR := by
    simp only [leaf, List.getLast?_concat, List.dropLast_concat, walked]
  simp only [lookAt, HostCalls.place, Bool.false_eq_true, if_false, leaves]
  cases isDir host.names real with
  | false => rfl
  | true =>
      have node : nodeAt host.names (real ++ [name]) = lookup host.names (real ++ [name]) := by
        simp [nodeAt]
      cases present : lookup host.names (real ++ [name]) with
      | none => simp [node, present]
      | some found => simp [node, present]

/-- What the name of a path is decides where the path leads. -/
theorem realpath_by_name {host : Host} {path real : Path}
    (parent : realpath host.names (dirname path) = .ok real) :
    (∀ st, lookAt host (inParent real path) false = .ok st → st.isSymbolicLink = false →
      realpath host.names path = .ok (inParent real path)) ∧
    (lookAt host (inParent real path) false = .error .ENOENT →
      realpath host.names path = .error .ENOENT) := by
  unfold dirname inParent at *
  cases path using List.reverseRecOn with
  | nil =>
      obtain rfl : [] = real := Except.ok.inj parent
      refine ⟨fun st seen plain => rfl, fun lost => ?_⟩
      have root : lookAt host [] false ≠ .error .ENOENT := by simp [lookAt, HostCalls.place, leaf, nodeAt]
      exact absurd lost root
  | append_singleton dir name =>
      rw [List.dropLast_concat] at parent
      rw [List.getLast?_concat, Option.toList_some, look_in_parent name parent]
      obtain ⟨left, walked⟩ := realpath_ok_iff.mp parent
      have steps : resolve host.names (dir ++ [name]) = walk host.names left real [.name name] := by
        rw [resolve_snoc, walked, Walk.andThen]
      cases opened : isDir host.names real with
      | false => simp
      | true =>
          cases present : lookup host.names (real ++ [name]) with
          | none =>
              refine ⟨by simp, fun _ => ?_⟩
              rw [walk_absent opened present] at steps
              simp [realpath, steps]
          | some node =>
              refine ⟨fun st seen plain => ?_, by simp⟩
              simp only [if_true, Except.ok.injEq] at seen
              have unlinked : ∀ target, node.kind ≠ .link target := by
                intro target linked
                rw [← seen] at plain
                simp [Stats.isSymbolicLink, linked] at plain
              rw [walk_enter opened present unlinked, walk_nil] at steps
              simp [realpath, steps]

/-- The directory of a host path has a real path, and this is the name in it. -/
def InParent (names : Names) (host location : Path) : Prop :=
  ∃ real, realpath names (dirname host) = .ok real ∧ location = inParent real host

/-- Where a host path leads, or the name that leads to nothing. -/
def Leads (names : Names) (host location : Path) : Prop :=
  realpath names host = .ok location ∨
    realpath names host = .error .ENOENT ∧ InParent names host location

variable {world : World} {host : Path} {dirs : List Path}

theorem via_parent_rule {follow : Bool} {ok : Option (Path × Ident) → World → Prop}
    (among : dirname host ∈ dirs) (admits : ∀ world act, Quiet dirs world act → good world act)
    (lost : ∀ after, Looked dirs world after →
      (∀ real, realpath world.host.names (dirname host) ≠ .ok real) → ok none after)
    (found : ∀ location ident after, Looked dirs world after →
      (TrueFor world (dirname host) → InParent world.host.names host location) →
      ok (some (location, ident)) after) :
    (viaParent host follow).Spec handle good ok bad world := by
  simp only [viaParent, lstatOrNull, fsLstat, Program.spec_bind, or_null_spec]
  apply cached_realpath_rule among admits
  · intro real after looked known
    simp only [try_lstat_spec]
    refine ⟨admits _ _ trivial, ?_⟩
    have later := looked_trans looked (looked_passed after)
    have place : TrueFor world (dirname host) → InParent world.host.names host (inParent real host) :=
      fun told => ⟨real, known told, rfl⟩
    cases lookAt after.host (inParent real host) false with
    | error code => exact found _ _ _ later place
    | ok st => exact found _ _ _ later place
  · intro error after looked missing
    exact lost after looked missing

theorem via_name_rule {ok : Option (Path × Ident) → World → Prop}
    (among : dirname host ∈ dirs) (admits : ∀ world act, Quiet dirs world act → good world act)
    (unsure : ∀ after, Looked dirs world after → ok none after)
    (found : ∀ location ident after, Looked dirs world after →
      (TrueFor world (dirname host) → Leads world.host.names host location) →
      ok (some (location, ident)) after) :
    (viaName host).Spec handle good ok bad world := by
  simp only [viaName, Program.spec_bind, or_null_spec]
  apply cached_realpath_rule among admits
  · intro real after looked known
    simp only [try_lstat_spec]
    refine ⟨admits _ _ trivial, ?_⟩
    have later := looked_trans looked (looked_passed after)
    rw [looked.host]
    cases seen : lookAt world.host (inParent real host) false with
    | error code =>
        simp only [Program.spec_pure]
        split
        · next gone =>
            refine found _ _ _ later fun told => Or.inr ⟨?_, real, known told, rfl⟩
            exact (realpath_by_name (known told)).2 (gone ▸ seen)
        · exact unsure _ later
    | ok st =>
        simp only [Program.spec_pure]
        split
        · exact unsure _ later
        · next plain =>
            refine found _ _ _ later fun told => Or.inl ?_
            exact (realpath_by_name (known told)).1 st seen (by simpa using plain)
  · intro error after looked missing
    exact unsure after looked

theorem via_leaf_rule {virtual : Path} {syscall : String} {follow : Bool}
    {ok : Option (Path × Ident) → World → Prop}
    (among : dirname host ∈ dirs) (admits : ∀ world act, Quiet dirs world act → good world act)
    (fails : ∀ error after, Looked dirs world after → bad error after)
    (lost : ∀ after, Looked dirs world after →
      (∀ real, realpath world.host.names (dirname host) ≠ .ok real) → ok none after)
    (found : ∀ location ident after, Looked dirs world after →
      (TrueFor world (dirname host) → Leads world.host.names host location) →
      ok (some (location, ident)) after) :
    (viaLeaf virtual host syscall follow).Spec handle good ok bad world := by
  simp only [viaLeaf, fsRealpath, fsStat, Program.spec_catch, Program.spec_bind, try_realpath_spec]
  refine ⟨admits _ _ trivial, ?_⟩
  have passed : Looked dirs world world.passed := looked_passed world
  cases real : realpath world.host.names host with
  | ok location =>
      simp only [raised_ok_spec, try_stat_spec, Program.spec_pure]
      refine ⟨admits _ _ trivial, ?_⟩
      obtain ⟨st, seen⟩ := look_at_real real
      have same : lookAt world.passed.host location true = .ok st := seen
      rw [same]
      exact found _ _ _ (looked_trans passed (looked_passed _)) fun _ => Or.inl real
  | error code =>
      simp only [raised_error_spec, Program.spec_ite]
      split
      · next gone =>
          rw [hostError_code] at gone
          apply via_parent_rule among admits
          · intro after looked missing
            exact lost after (looked_trans passed looked) missing
          · intro location ident after looked known
            refine found _ _ _ (looked_trans passed looked) fun told => Or.inr ⟨?_, known told⟩
            rw [real, gone]
      · exact fails _ _ passed

/-- The site that a check leads to. -/
def siteOf (virtual host : Path) (within root : Root) (ident : Option Ident) : Site :=
  ⟨virtual, host, within, root, ident⟩

theorem check_host_rule {b : Broker} {virtual : Path} {within : Root} {syscall : String} {follow : Bool}
    {ok : Check → World → Prop}
    (among : dirname host ∈ dirs) (admits : ∀ world act, Quiet dirs world act → good world act)
    (fails : ∀ error after, Looked dirs world after → bad error after)
    (escapes : ∀ after, Looked dirs world after → ok .escape after)
    (held : ∀ root ident after, Looked dirs world after →
      (TrueFor world (dirname host) →
        Cleared b.ns world.host.names (siteOf virtual host within root ident) follow) →
      ok (.held root ident) after) :
    (checkHost b virtual host within syscall follow).Spec handle good ok bad world := by
  -- the last step of every way through: which root holds the location
  have judge : ∀ location ident after, Looked dirs world after →
      (∀ root, rootForReal b.ns location = some root → TrueFor world (dirname host) →
        Cleared b.ns world.host.names (siteOf virtual host within root (some ident)) follow) →
      ok (holderOf b within (some (location, ident))) after := by
    intro location ident after looked clears
    cases holds : rootForReal b.ns location with
    | none =>
        simp only [holderOf, holds]
        exact escapes after looked
    | some root =>
        simp only [holderOf, holds]
        exact held root (some ident) after looked (clears root holds)
  have led : follow = true ∨ virtual = within.vroot → ∀ location ident after, Looked dirs world after →
      (TrueFor world (dirname host) → Leads world.host.names host location) →
      ok (holderOf b within (some (location, ident))) after := by
    intro followed location ident after looked leads
    refine judge location ident after looked fun root holds told => ?_
    rcases leads told with found | ⟨gone, real, parent, rfl⟩
    · exact .object followed location found holds
    · exact .missing followed gone real parent holds
  have unseen : ∀ after, Looked dirs world after →
      (∀ real, realpath world.host.names (dirname host) ≠ .ok real) → ok (holderOf b within none) after :=
    fun after looked lost => held within none after looked fun _ => .unseen lost rfl
  -- without the shortcut: the leaf for a following check or a root, else its name
  have slow : ∀ middle, Looked dirs world middle →
      if follow || virtual = within.vroot then
        (viaLeaf virtual host syscall follow).Spec handle good
          (fun site after => ok (holderOf b within site) after) bad middle
      else
        (viaParent host follow).Spec handle good
          (fun site after => ok (holderOf b within site) after) bad middle := by
    intro middle early
    split
    · next followed =>
      simp only [Bool.or_eq_true, decide_eq_true_eq] at followed
      apply via_leaf_rule among admits
      · intro error after looked
        exact fails error after (looked_trans early looked)
      · intro after looked lost
        rw [early.host] at lost
        exact unseen after (looked_trans early looked) lost
      · intro location ident after looked leads
        rw [early.host] at leads
        exact led followed location ident after (looked_trans early looked) fun told =>
          leads (looked_true early told)
    · next direct =>
        simp only [Bool.or_eq_true, decide_eq_true_eq, not_or, Bool.not_eq_true] at direct
        apply via_parent_rule among admits
        · intro after looked lost
          rw [early.host] at lost
          exact unseen after (looked_trans early looked) lost
        · intro location ident after looked parent
          rw [early.host] at parent
          refine judge location ident after (looked_trans early looked) fun root holds told => ?_
          obtain ⟨real, found, rfl⟩ := parent (looked_true early told)
          exact .name direct.1 direct.2 real found holds
  simp only [checkHost, realLocation, Program.spec_bind, Program.spec_ite, Program.spec_pure]
  split
  · next shortcut =>
    simp only [Bool.and_eq_true] at shortcut
    apply via_name_rule among admits
    · intro middle looked
      simpa using slow middle looked
    · intro location ident middle looked leads
      simpa using led (Or.inl shortcut.1) location ident middle looked leads
  · simpa using slow world (looked_refl world)

/-- The directories whose real path placing an argument asks for. -/
def pathDirs (b : Broker) (path : PathArg) : List Path :=
  match (toVirtualPath b.cwd path).map (FileNamespace.resolve b.ns) with
  | some (.root _ host _) => [dirname host]
  | _ => []

def resolvedVirtual : Resolution → Path
  | .root virtual _ _ => virtual
  | .ancestor virtual _ => virtual
  | .outside virtual => virtual

/-- What `place` answers in a world. -/
inductive Stands (b : Broker) (world : World) (path : PathArg) (want : Want) (follow : Bool) :
    Placed → Prop where
  | above (virtual v : Path) (kids : List Child) (named : toVirtualPath b.cwd path = some virtual)
      (resolved : FileNamespace.resolve b.ns virtual = .ancestor v kids) (reading : want = .r) :
      Stands b world path want follow (.above v kids)
  | free (virtual v : Path) (named : toVirtualPath b.cwd path = some virtual)
      (unrooted : ∀ v host root, FileNamespace.resolve b.ns virtual ≠ .root v host root)
      (same : resolvedVirtual (FileNamespace.resolve b.ns virtual) = v)
      (unguarded : b.enforce = false) : Stands b world path want follow (.free v)
  | rooted (virtual : Path) (site : Site) (named : toVirtualPath b.cwd path = some virtual)
      (resolved : FileNamespace.resolve b.ns virtual = .root site.virtual site.host site.within)
      (cleared : b.enforce = true → TrueFor world (dirname site.host) →
        Cleared b.ns world.host.names site follow)
      (writable : b.enforce = true → want = .w → site.root.writable = true) :
      Stands b world path want follow (.rooted site)

theorem looked_report {rule : Rule} {target : Path} : Looked dirs world (world.report rule target) :=
  @quiet_looked dirs world (.report rule target) trivial

theorem report_rule {b : Broker} {rule : Rule} {target : Path} {ok : Unit → World → Prop}
    (admits : ∀ world act, Quiet dirs world act → good world act)
    (ends : ∀ after, Looked dirs world after → ok () after) :
    (report b rule target).Spec handle good ok bad world := by
  simp only [report, only_if_spec, add_report_spec]
  split
  · exact ⟨admits _ _ trivial, ends _ looked_report⟩
  · exact ends _ (looked_refl world)

theorem place_rule {b : Broker} {path : PathArg} {want : Want} {syscall : String} {follow : Bool}
    {ok : Placed → World → Prop} (among : pathDirs b path ⊆ dirs)
    (admits : ∀ world act, Quiet dirs world act → good world act)
    (fails : ∀ error after, Looked dirs world after → bad error after)
    (ends : ∀ placed after, Looked dirs world after → Stands b world path want follow placed →
      ok placed after) :
    (place b path want syscall follow).Spec handle good ok bad world := by
  unfold FsBroker.place
  unfold pathDirs at among
  cases named : toVirtualPath b.cwd path with
  | none => exact fails _ _ (looked_refl world)
  | some virtual =>
      simp only
      cases resolved : FileNamespace.resolve b.ns virtual with
      | ancestor v kids =>
          simp only [Program.spec_ite, Program.spec_pure, Program.spec_throw]
          split
          · next open_ =>
              exact ends _ _ (looked_refl world)
                (.free virtual v named (by simp [resolved]) (by rw [resolved]; rfl) (by simpa using open_))
          split
          · exact fails _ _ (looked_refl world)
          · next reading =>
              refine ends _ _ (looked_refl world) (.above virtual v kids named resolved ?_)
              cases want with
              | r => rfl
              | w => exact absurd rfl reading
      | outside v =>
          simp only [Program.spec_bind]
          apply report_rule admits
          intro after looked
          simp only [refuse_if_spec, Program.spec_pure]
          split
          · exact fails _ _ looked
          · next open_ =>
              exact ends _ _ looked
                (.free virtual v named (by simp [resolved]) (by rw [resolved]; rfl) (by simpa using open_))
      | root v host within =>
          have dir : dirname host ∈ dirs := by
            apply among
            simp [named, resolved]
          simp only [Program.spec_ite, Program.spec_pure, Program.spec_bind]
          split
          · next off =>
              refine ends _ _ (looked_refl world) (.rooted virtual _ named resolved ?_ ?_)
              · simp [Broker.enforce, off]
              · simp [Broker.enforce, off]
          -- the last step: a read-only root refuses a writer
          have judge : ∀ root ident after, Looked dirs world after →
              (b.enforce = true → TrueFor world (dirname host) →
                Cleared b.ns world.host.names (siteOf v host within root ident) follow) →
              Prog.Spec handle good
                (fun _ after => ok (.rooted (siteOf v host within root ident)) after) bad
                (onlyIf (want = .w && !root.writable) do
                  report b .readonly v
                  refuseIf b.enforce (nodeError .EROFS syscall v)) after := by
            intro root ident after looked clears
            simp only [only_if_spec, Program.spec_bind]
            split
            · apply report_rule admits
              intro later reported
              simp only [refuse_if_spec]
              split
              · exact fails _ _ (looked_trans looked reported)
              · next open_ =>
                  refine ends _ _ (looked_trans looked reported)
                    (.rooted virtual (siteOf v host within root ident) named resolved clears ?_)
                  intro guarded
                  exact absurd guarded open_
            · next passes =>
                refine ends _ _ looked
                  (.rooted virtual (siteOf v host within root ident) named resolved clears ?_)
                intro _ writing
                simpa [siteOf, writing] using passes
          apply check_host_rule dir admits fails
          · intro after looked
            simp only [Program.spec_bind]
            apply report_rule admits
            intro later reported
            simp only [refuse_if_spec]
            split
            · exact fails _ _ (looked_trans looked reported)
            · next open_ =>
                exact judge within none later (looked_trans looked reported) fun guarded =>
                  absurd guarded open_
          · intro root ident after looked cleared
            simp only [Program.spec_bind, Program.spec_pure]
            exact judge root ident after looked fun _ told => cleared told

end Placing

end Countinghouse.BrokerChecks
