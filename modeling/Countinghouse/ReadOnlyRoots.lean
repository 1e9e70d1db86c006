import Countinghouse.BrokerReach

/-!
Read-only roots under enforce: no name inside a root that is not writable is created,
changed, moved or removed, unless it lies in a deeper writable root.

A name keeps its object when no change is made at it, and the object keeps its
contents when no name or open file outside the read-only roots shares its inode. What
the broker checks is one location; a rename or removal acts on all that lies below.
-/

namespace Countinghouse.ReadOnlyRoots

open HostTree HostEffects FileNamespace BrokerWorld FsBroker BrokerChecks BrokerWarrant FileWarrants WarrantedRuns BrokerReach
open HostCalls hiding rename link symlink truncate unlink openFile place

/-! Which locations are read-only. -/
section Rule

variable {ns : Namespace} {location : Path}

/-- Inside a root that is not writable, and in no writable root deeper than that. -/
def readOnlyAt (ns : Namespace) (location : Path) : Bool :=
  ns.roots.any fun root => !root.writable && inside location root.real &&
    !ns.roots.any fun other => other.writable && inside location other.real &&
      inside other.real root.real && other.real != root.real

/-- No writable root has the real path of a read-only one. -/
def untied (ns : Namespace) : Bool :=
  ns.roots.all fun root => root.writable ||
    ns.roots.all fun other => !other.writable || other.real != root.real

/-- No read-only root lies at the location or below it. -/
def rootless (ns : Namespace) (location : Path) : Bool :=
  ns.roots.all fun root => root.writable || !inside root.real location

/-- The place is not read-only, and the read-only roots below it exist. -/
def spares (ns : Namespace) (names : Names) (place : Path) : Bool :=
  !readOnlyAt ns place && ns.roots.all fun root => root.writable || !inside root.real place ||
    root.real == place || (nodeAt names root.real).isSome

theorem read_only_iff : readOnlyAt ns location = true ↔
    ∃ root ∈ ns.roots, root.writable = false ∧ inside location root.real = true ∧
      ∀ other ∈ ns.roots, other.writable = true → inside location other.real = true →
        inside other.real root.real = true → other.real = root.real := by
  simp only [readOnlyAt, List.any_eq_true, Bool.and_eq_true, Bool.not_eq_true', List.any_eq_false,
    bne_iff_ne, ne_eq, not_and, not_not]
  constructor
  · rintro ⟨root, member, ⟨closed, within⟩, alone⟩
    exact ⟨root, member, closed, within, fun other among writable holds deeper =>
      alone other among ⟨⟨writable, holds⟩, deeper⟩⟩
  · rintro ⟨root, member, closed, within, alone⟩
    exact ⟨root, member, ⟨closed, within⟩, fun other among ⟨⟨writable, holds⟩, deeper⟩ =>
      alone other among writable holds deeper⟩

/-- The deepest root decides, so a location in a writable one is not read-only. -/
theorem held_not_read_only {b : Broker} (apart : untied b.ns = true) (held : Held b .w location) :
    readOnlyAt b.ns location = false := by
  obtain ⟨root, holds, writable⟩ := held
  by_contra closed
  obtain ⟨other, member, shut, within, alone⟩ := read_only_iff.mp (by simpa using closed)
  obtain ⟨among, inner⟩ := root_for_real_some holds
  have shorter := root_for_real_deepest holds member within
  have same := alone root among (writable rfl) inner ((inside_iff _ _).mpr shorter)
  have checked := List.all_eq_true.mp apart other member
  simp only [shut, Bool.false_or] at checked
  have differs := List.all_eq_true.mp checked root among
  simp [writable rfl, same] at differs

/-- Below a location that is not read-only, only deeper read-only roots close a path. -/
theorem below_not_read_only {path : Path} (open_ : readOnlyAt ns location = false)
    (within : inside path location = true)
    (clear : ∀ root ∈ ns.roots, root.writable = false → inside root.real location = true →
      root.real ≠ location → inside path root.real = false) : readOnlyAt ns path = false := by
  by_contra closed
  obtain ⟨root, member, shut, holds, alone⟩ := read_only_iff.mp (by simpa using closed)
  have above : inside location root.real = true → False := by
    intro outer
    -- the root would close the location too, so a deeper writable root opens both
    have closes : readOnlyAt ns location = true := read_only_iff.mpr
      ⟨root, member, shut, outer, fun other among writable inner deeper =>
        alone other among writable (inside_trans within inner) deeper⟩
    simp [closes] at open_
  rcases List.prefix_or_prefix_of_prefix ((inside_iff _ _).mp holds) ((inside_iff _ _).mp within) with
    outer | inner
  · exact above ((inside_iff _ _).mpr outer)
  · by_cases same : root.real = location
    · exact above (same ▸ inside_self _)
    · have outside := clear root member shut ((inside_iff _ _).mpr inner) same
      simp [holds] at outside

theorem rootless_below {path : Path} (open_ : readOnlyAt ns location = false)
    (free : rootless ns location = true) (within : inside path location = true) :
    readOnlyAt ns path = false := by
  apply below_not_read_only open_ within
  intro root member shut deeper _
  have checked := List.all_eq_true.mp free root member
  simp [shut, deeper] at checked

theorem below_spared {b : Broker} {names : Names} {op : Op}
    (spared : (looseWrites b names op).all (spares b.ns names) = true) (below : Below b names op location) :
    readOnlyAt b.ns location = false := by
  obtain ⟨place, member, within, missing⟩ := below
  have checked := List.all_eq_true.mp spared place member
  simp only [spares, Bool.and_eq_true, Bool.not_eq_true'] at checked
  apply below_not_read_only checked.1 within
  intro root among shut deeper other
  by_contra inner
  have present := List.all_eq_true.mp checked.2 root among
  have absent := missing root.real deeper other (by simpa using inner)
  simp [shut, deeper, other, absent] at present

end Rule

/-! Names and inodes that stay. -/
section Intact

/-- Every object of a tree with one of its locations, the nameless root included. -/
def objects (names : Names) : Names := ([], ⟨rootIno, .dir⟩) :: names

theorem mem_objects {names : Names} {path : Path} {node : Node} (present : nodeAt names path = some node) :
    (path, node) ∈ objects names := by
  unfold nodeAt at present
  split at present
  · next root =>
      rw [List.isEmpty_iff.mp root, ← Option.some.inj present]
      exact List.mem_cons_self
  · exact List.mem_cons_of_mem _ (mem_of_names_lookup present)

/-- The inodes that have a read-only name at the start. -/
def Sealed (ns : Namespace) (start : Host) (ino : Nat) : Prop :=
  ∃ path node, readOnlyAt ns path = true ∧ nodeAt start.names path = some node ∧ node.ino = ino

/-- The read-only names are those of the start, and no other name has their inodes. -/
structure NamesIntact (ns : Namespace) (start : Host) (names : Names) : Prop where
  same : ∀ path, readOnlyAt ns path = true → nodeAt names path = nodeAt start.names path
  apart : ∀ path node, readOnlyAt ns path = false → nodeAt names path = some node →
    ¬ Sealed ns start node.ino

structure Intact (ns : Namespace) (start : Host) (now : World) : Prop where
  names : NamesIntact ns start now.host.names
  inodes : ∀ ino, Sealed ns start ino → now.host.inodes ino = start.inodes ino
  fresh : ∀ ino, Sealed ns start ino → ino < now.host.nextIno
  files : ∀ entry ∈ now.files, entry.2.writable = true → ¬ Sealed ns start entry.2.ino

variable {ns : Namespace} {start : Host} {names : Names}

theorem add_intact {location : Path} {node : Node} (intact : NamesIntact ns start names)
    (open_ : readOnlyAt ns location = false) (new : ¬ Sealed ns start node.ino) :
    NamesIntact ns start (Change.apply names (.add location node)) := by
  constructor
  · intro path closed
    have other : location ≠ path := by
      rintro rfl
      simp [open_] at closed
    rw [← intact.same path closed]
    simp [nodeAt, lookup_add, other]
  · intro path found outside present
    by_cases here : location = path
    · by_cases root : path = []
      · apply intact.apart path found outside
        simpa [nodeAt, root] using present
      · simp only [nodeAt, List.isEmpty_iff, root, if_false, lookup_add, here, if_true,
          Option.some.injEq] at present
        rwa [← present]
    · apply intact.apart path found outside
      simpa [nodeAt, lookup_add, here] using present

theorem adds_intact {entries : List (Path × Node)} (intact : NamesIntact ns start names)
    (each : ∀ entry ∈ entries, readOnlyAt ns entry.1 = false ∧ ¬ Sealed ns start entry.2.ino) :
    NamesIntact ns start ((entries.map fun entry => Change.add entry.1 entry.2).foldl Change.apply names) := by
  induction entries generalizing names with
  | nil => exact intact
  | cons entry rest ih =>
      obtain ⟨open_, new⟩ := each entry List.mem_cons_self
      exact ih (add_intact intact open_ new) fun other member => each other (List.mem_cons_of_mem _ member)

theorem drop_intact {location : Path} {spared : List Path} (intact : NamesIntact ns start names)
    (open_ : ∀ path, inside path location = true → readOnlyAt ns path = false) :
    NamesIntact ns start (Change.apply names (.drop location spared)) := by
  constructor
  · intro path closed
    have kept : dropped location spared path = false := by
      by_contra gone
      simp only [dropped, Bool.and_eq_true, Bool.not_eq_false] at gone
      simp [open_ path gone.1] at closed
    rw [← intact.same path closed]
    simp [nodeAt, lookup_drop, kept]
  · intro path node outside present
    apply intact.apart path node outside
    unfold nodeAt at present ⊢
    split
    · simpa [*] using present
    · next named =>
        simp only [named, Bool.false_eq_true, if_false, lookup_drop] at present
        split at present
        · simp at present
        · exact present

theorem move_intact {source dest : Path} (intact : NamesIntact ns start names) (nonroot : source ≠ [])
    (openSource : ∀ path, inside path source = true → readOnlyAt ns path = false)
    (openDest : ∀ path, inside path dest = true → readOnlyAt ns path = false) :
    NamesIntact ns start (Change.apply names (.move source dest)) := by
  constructor
  · intro path closed
    have away : inside path source = false := by
      by_contra below
      simp [openSource path (by simpa using below)] at closed
    have apart : inside path dest = false := by
      by_contra below
      simp [openDest path (by simpa using below)] at closed
    rw [← intact.same path closed]
    simp [nodeAt, lookup_move, away, apart]
  · intro path node outside present
    by_cases root : path = []
    · apply intact.apart path node outside
      simpa [nodeAt, root] using present
    simp only [nodeAt, List.isEmpty_iff, root, if_false, lookup_move] at present
    split at present
    · split at present
      · simp at present
      next =>
        have origin : inside (source ++ path.drop dest.length) source = true :=
          (inside_iff _ _).mpr (List.prefix_append _ _)
        apply intact.apart _ node (openSource _ origin)
        simpa [nodeAt, nonroot] using present
    · split at present
      · simp at present
      · apply intact.apart path node outside
        simpa [nodeAt, root] using present

theorem edits_keep {edits : List (Nat × Inode)} {inodes : Nat → Inode} {ino : Nat}
    (others : ∀ edit ∈ edits, edit.1 ≠ ino) : edits.foldl setInode inodes ino = inodes ino := by
  induction edits generalizing inodes with
  | nil => rfl
  | cons edit rest ih =>
      rw [List.foldl_cons, ih fun later member => others later (List.mem_cons_of_mem _ member)]
      simp [setInode, (others edit List.mem_cons_self).symm]

end Intact

/-! Steps. -/
section Steps

/-- An inode that has a read-only name now. -/
def readOnlyIno (ns : Namespace) (names : Names) (ino : Nat) : Bool :=
  (objects names).any fun entry => entry.2.ino == ino && readOnlyAt ns entry.1

/-- `fchmod`, `fchown` and `futimes` are not made on a file with a read-only name. -/
def editsSpare (b : Broker) (world : World) (op : Op) : Bool :=
  match descriptorEdit op with
  | none => true
  | some fd => world.entries.all fun entry => entry.1 != fd ||
      match world.file entry.2.handle with
      | none => true
      | some file => !readOnlyIno b.ns world.host.names file.ino

/-- The own name of a linked root that would get another name. -/
def linkSources (b : Broker) (names : Names) : Op → List Path
  | .link path _ => rootNames b names path
  | _ => []

/-- The operation uses no stale real path, its loose places are not read-only, it
uproots no read-only root, and it edits no file of one through a descriptor. -/
def sealing (b : Broker) (world : World) (op : Op) : Bool :=
  trusts b world op && (looseWrites b world.host.names op).all (spares b.ns world.host.names) &&
    (linkSources b world.host.names op).all (fun place => !readOnlyAt b.ns place) &&
    (uprooted b world.host.names op).all (rootless b.ns) && editsSpare b world op

structure Sealing (b : Broker) (world : World) (op : Op) : Prop where
  trusted : Trusted b (started op world) op
  loose : (looseWrites b world.host.names op).all (spares b.ns world.host.names) = true
  sources : ∀ place ∈ linkSources b world.host.names op, readOnlyAt b.ns place = false
  uproots : ∀ place ∈ uprooted b world.host.names op, rootless b.ns place = true
  edits : editsSpare b world op = true

variable {b : Broker} {start : Host} {world now : World} {op : Op}

theorem sealing_parts (meets : sealing b world op = true) : Sealing b world op := by
  simp only [sealing, Bool.and_eq_true, List.all_eq_true, Bool.not_eq_true'] at meets
  obtain ⟨⟨⟨⟨trusting, loose⟩, sources⟩, uproots⟩, edits⟩ := meets
  exact ⟨trusts_started trusting, List.all_eq_true.mpr loose, sources, uproots, edits⟩

theorem change_site_open {call : Call} {chance : Chance} {location : Path} (guarded : b.enforce = true)
    (apart : untied b.ns = true) (meets : Sealing b world op) (same : now.host = world.host)
    (warrant : Warrant b (started op world) op call) (member : location ∈ changeSites now.host chance call) :
    readOnlyAt b.ns location = false := by
  rw [same, ← started_host op world] at member
  have found := warrant_changes guarded meets.trusted warrant member
  rw [started_host] at found
  rcases found with held | below
  · exact held_not_read_only apart held
  · exact below_spared meets.loose below

theorem open_site_open {path : Path} {flags : OpenFlags} {location : Path} (guarded : b.enforce = true)
    (apart : untied b.ns = true) (meets : Sealing b world op) (same : now.host = world.host)
    (warrant : OpenWarrant b (started op world) op path flags) (writing : writes flags = true)
    (member : location ∈ openSites now.host.names path flags) : readOnlyAt b.ns location = false := by
  rw [same, ← started_host op world] at member
  have found := open_warrant_sites guarded meets.trusted warrant member
  rw [started_host, if_pos writing] at found
  rcases found with held | below
  · exact held_not_read_only apart held
  · exact below_spared meets.loose below

/-- The object that gets a second name lies in the same writable root. -/
theorem link_source_open {source dest : PathArg} {origin goal : Placed} {src location : Path}
    (guarded : b.enforce = true) (apart : untied b.ns = true) (meets : Sealing b world (.link source dest))
    (sourceAt : PlacedAt b (started (.link source dest) world) source .r false origin src)
    (same : rootOf origin = rootOf goal) (writable : ∀ root, rootOf goal = some root → root.writable = true)
    (at_leaf : leaf world.host.names src = .ok location) : readOnlyAt b.ns location = false := by
  rw [← started_host (.link source dest) world] at at_leaf
  have found := placed_own_root guarded meets.trusted (by simp [pathArgs]) sourceAt rfl at_leaf
  rw [started_host] at found
  rcases found with ⟨root, placed, holds, _⟩ | own
  · exact held_not_read_only apart ⟨root, holds, fun _ => writable root (same ▸ placed)⟩
  · exact meets.sources location own

/-- Everything below what an operation uproots may be written. -/
theorem uprooted_open {path : PathArg} {host location : Path} (meets : Sealing b world op)
    (active : uproots op = true) (argument : path ∈ pathArgs op) (hosted : argHost b path = some host)
    (at_leaf : leaf world.host.names host = .ok location) (open_ : readOnlyAt b.ns location = false) :
    ∀ below, inside below location = true → readOnlyAt b.ns below = false :=
  fun _ within => rootless_below open_ (meets.uproots location (mem_uprooted active argument hosted at_leaf))
    within

theorem not_sealed_of_fresh (intact : Intact b.ns start now) {ino : Nat} (later : now.host.nextIno ≤ ino) :
    ¬ Sealed b.ns start ino := by
  intro shut
  exact absurd (intact.fresh ino shut) (by omega)

theorem call_names_intact {call : Call} (guarded : b.enforce = true) (apart : untied b.ns = true)
    (meets : Sealing b world op) (intact : Intact b.ns start now) (same : now.host = world.host)
    (warrant : Warrant b (started op world) op call) :
    NamesIntact b.ns start ((exec now.host call now.chance).1.changes.foldl Change.apply now.host.names) := by
  have sited : ∀ location ∈ changeSites now.host now.chance call, readOnlyAt b.ns location = false :=
    fun location member => change_site_open guarded apart meets same warrant member
  have new : ∀ {ino : Nat}, now.host.nextIno ≤ ino → ¬ Sealed b.ns start ino := not_sealed_of_fresh intact
  have alters := exec_alters now.host now.chance call
  generalize (exec now.host call now.chance).1.changes = changes at alters
  cases alters with
  | nothing => exact intact.names
  | makes _ location kind site free linking =>
      exact add_intact intact.names (sited location site) (new (Nat.le_refl _))
  | makesDirs path mode count =>
      apply adds_intact intact.names
      intro entry member
      have planned := List.mem_of_mem_take member
      obtain ⟨_, _, _, made⟩ := mem_planned_dirs planned
      exact ⟨sited _ (List.mem_map.mpr ⟨entry, planned, rfl⟩), new made.fresh⟩
  | links source dest src dst node sourceAt destAt present plain free =>
      have target := sited dst (mem_vacant.mpr ⟨destAt, free⟩)
      cases warrant with
      | link _ _ origin goal _ _ originAt goalAt roots writable =>
          rw [same] at sourceAt
          have origin_open := link_source_open guarded apart meets originAt roots writable sourceAt
          exact add_intact intact.names target (intact.names.apart src node origin_open present)
      | remove _ _ path make placed host asked placing made inner =>
          have gone := removal_removes asked host
          simp [← made, removes] at gone
  | drops _ location spared removing site =>
      have open_ := sited location site
      cases warrant with
      | remove _ _ path make placed host asked placing made inner =>
          obtain ⟨argument, _, acts⟩ := removal_sites asked
          rw [made, acts, same] at site
          exact drop_intact intact.names (uprooted_open meets (removal_uproots asked) argument
            (arg_host_of_placed placing) (mem_located site) open_)
      | _ => simp [removes] at removing
  | moves source dest src dst sourceAt destAt present named =>
      have openSource := sited src (by simp [changeSites, sites, sourceAt, located])
      have openDest := sited dst (by simp [changeSites, sites, destAt, located])
      cases warrant with
      | rename _ _ origin goal _ _ originAt goalAt inner roots =>
          rw [same] at sourceAt destAt
          exact move_intact intact.names named.1
            (uprooted_open meets rfl (by simp [pathArgs]) (arg_host_of_placed originAt) sourceAt openSource)
            (uprooted_open meets rfl (by simp [pathArgs]) (arg_host_of_placed goalAt) destAt openDest)
      | remove _ _ path make placed host asked placing made inner =>
          have gone := removal_removes asked host
          simp [← made, removes] at gone

theorem open_names_intact {path : Path} {flags : OpenFlags} {mode : Nat} (guarded : b.enforce = true)
    (apart : untied b.ns = true) (meets : Sealing b world op) (intact : Intact b.ns start now)
    (same : now.host = world.host) (warrant : OpenWarrant b (started op world) op path flags) :
    NamesIntact b.ns start
      ((exec now.host (.openFile path flags mode) now.chance).1.changes.foldl Change.apply now.host.names) := by
  have alters := exec_alters now.host now.chance (.openFile path flags mode)
  generalize (exec now.host (.openFile path flags mode) now.chance).1.changes = changes at alters
  cases alters with
  | nothing => exact intact.names
  | drops _ location spared removing site => simp [removes] at removing
  | makes _ location kind site free linking =>
      simp only [changeSites] at site
      split at site
      · next creating =>
          have open_ := open_site_open guarded apart meets same warrant (by simp [writes, creating]) site
          exact add_intact intact.names open_ (not_sealed_of_fresh intact (Nat.le_refl _))
      · simp at site

theorem handle_names_intact {act : Act} (guarded : b.enforce = true) (apart : untied b.ns = true)
    (meets : Sealing b world op) (intact : Intact b.ns start now)
    (permit : Permit b (started op world) op now act) :
    NamesIntact b.ns start (handle act now).2.host.names := by
  rw [handle_names]
  cases act with
  | call call =>
      exact call_names_intact guarded apart meets intact (permit.1.trans (started_host op world)) permit.2.2
  | openFile path flags mode =>
      exact open_names_intact guarded apart meets intact (permit.1.trans (started_host op world)) permit.2
  | _ => exact intact.names

theorem warrant_by_path {call : Call} (warrant : Warrant b world op call) (file : OpenFile) (act : FdAct) :
    call ≠ .descriptor file act := by
  rintro rfl
  cases warrant with
  | remove _ _ path make placed host asked sited made inner =>
      have gone := removal_removes asked host
      simp [← made, removes] at gone

theorem sealed_read_only (intact : Intact b.ns start now) {ino : Nat} (shut : Sealed b.ns start ino) :
    readOnlyIno b.ns now.host.names ino = true := by
  obtain ⟨path, node, closed, present, same⟩ := shut
  rw [← intact.names.same path closed] at present
  exact List.any_eq_true.mpr ⟨(path, node), mem_objects present, by simp [same, closed]⟩

/-- No written inode has a read-only name. -/
theorem edits_unsealed {act : Act} (guarded : b.enforce = true) (apart : untied b.ns = true)
    (meets : Sealing b world op) (intact : Intact b.ns start now)
    (permit : Permit b (started op world) op now act) :
    ∀ edit ∈ (effectOf now act).edits, ¬ Sealed b.ns start edit.1 := by
  intro edit member
  cases act with
  | call call =>
      rcases exec_writes (warrant_by_path permit.2.2) member with later | ⟨location, site, kind, present⟩
      · exact not_sealed_of_fresh intact later
      · have open_ := change_site_open guarded apart meets (permit.1.trans (started_host op world)) permit.2.2
          site
        exact intact.names.apart location _ open_ present
  | openFile path flags mode =>
      rcases exec_writes (by simp) member with later | ⟨location, site, kind, present⟩
      · exact not_sealed_of_fresh intact later
      · simp only [changeSites] at site
        split at site
        · next creating =>
            have open_ := open_site_open guarded apart meets (permit.1.trans (started_host op world)) permit.2
              (by simp [writes, creating]) site
            exact intact.names.apart location _ open_ present
        · simp at site
  | onFile key act =>
      simp only [effectOf] at member
      cases found : now.file key with
      | none => simp [found, Effect.none] at member
      | some file =>
          simp only [found] at member
          obtain ⟨own, writable | ⟨attr, rfl⟩⟩ := descriptor_writes member
          · rw [own]
            exact intact.files (key, file) (mem_of_lookup found) writable
          · -- an attribute is edited through a descriptor of the world before
            obtain ⟨fd, entry, asked, among, rfl, here⟩ := permit
            intro shut
            have spared := meets.edits
            simp only [editsSpare, asked] at spared
            have checked := List.all_eq_true.mp spared (fd, entry) (started_entries op world ▸ among)
            have before : world.file entry.handle = some file := by
              rw [← found, here, World.file, World.file, started_files]
            have read := sealed_read_only intact shut
            rw [own, here, started_host] at read
            simp [before, read] at checked
  | _ => simp [effectOf, Effect.none] at member

theorem opened_unsealed {path : Path} {flags : OpenFlags} {mode : Nat} {file : OpenFile}
    (guarded : b.enforce = true) (apart : untied b.ns = true) (meets : Sealing b world op)
    (intact : Intact b.ns start now) (same : now.host = world.host)
    (warrant : OpenWarrant b (started op world) op path flags)
    (opened : (now.outcome (.openFile path flags mode)).2 = .ok (.opened file))
    (writable : file.writable = true) : ¬ Sealed b.ns start file.ino := by
  obtain ⟨location, found⟩ := opened_at opened
  rcases found.object with present | ⟨_, new⟩
  · have writing : writes flags = true := by
      rw [found.writable, bne_iff_ne] at writable
      cases first : flags.wronly <;> cases second : flags.rdwr <;> simp_all [writes]
    exact intact.names.apart location _ (open_site_open guarded apart meets same warrant writing found.site)
      present
  · rw [new]
    exact not_sealed_of_fresh intact (Nat.le_refl _)

theorem permit_intact {act : Act} (guarded : b.enforce = true) (apart : untied b.ns = true)
    (meets : Sealing b world op) (intact : Intact b.ns start now)
    (permit : Permit b (started op world) op now act) : Intact b.ns start (handle act now).2 where
  names := handle_names_intact guarded apart meets intact permit
  inodes := by
    intro ino shut
    rw [handle_host]
    refine (edits_keep fun edit member same => ?_).trans (intact.inodes ino shut)
    exact edits_unsealed guarded apart meets intact permit edit member (same ▸ shut)
  fresh := by
    intro ino shut
    rw [handle_host]
    exact Nat.lt_add_right _ (intact.fresh ino shut)
  files := by
    intro entry member writable
    rcases handle_files now act member with ⟨old, among, stays⟩ | ⟨path, flags, mode, rfl, opened⟩
    · rw [stays.ino]
      exact intact.files _ among (stays.writable ▸ writable)
    · exact opened_unsealed guarded apart meets intact (permit.1.trans (started_host op world)) permit.2 opened
        writable

theorem handle_one_intact (guarded : b.enforce = true) (apart : untied b.ns = true)
    (intact : Intact b.ns start world) (meets : sealing b world op = true) :
    (handleOne b op).Spec handle (fun _ _ => True) (fun _ after => Intact b.ns start after)
      (fun _ after => Intact b.ns start after) world := by
  have steps : ∀ now act, Intact b.ns start now → Permit b (started op world) op now act →
      Intact b.ns start (handle act now).2 :=
    fun now act kept permit => permit_intact guarded apart (sealing_parts meets) kept permit
  have all := Program.spec_invariant steps intact (handle_one_permitted op world)
  exact Program.spec_mono all (fun _ _ _ => trivial) (fun _ _ both => both.1) fun _ _ both => both.1

end Steps

/-! Runs. -/
section Runs

/-- The inode numbers in use are below the next one. -/
def numbered (host : Host) : Bool := (objects host.names).all fun entry => entry.2.ino < host.nextIno

/-- No inode has a read-only name and another one. -/
def unaliased (ns : Namespace) (names : Names) : Bool :=
  (objects names).all fun first => (objects names).all fun second =>
    !readOnlyAt ns first.1 || readOnlyAt ns second.1 || first.2.ino != second.2.ino

/-- The same object, with the same contents and attributes. -/
def Unchanged (before after : Host) (path : Path) : Prop :=
  nodeAt after.names path = nodeAt before.names path ∧
    ∀ node, nodeAt before.names path = some node → after.inodes node.ino = before.inodes node.ino

theorem start_intact {ns : Namespace} {world : World} (unopened : world.files = [])
    (counted : numbered world.host = true) (single : unaliased ns world.host.names = true) :
    Intact ns world.host world where
  names :=
    { same := fun _ _ => rfl
      apart := by
        rintro path node outside present ⟨other, twin, closed, found, same⟩
        have checked := List.all_eq_true.mp (List.all_eq_true.mp single _ (mem_objects found)) _
          (mem_objects present)
        simp [closed, outside, same] at checked }
  inodes := fun _ _ => rfl
  fresh := by
    rintro ino ⟨path, node, _, present, rfl⟩
    simpa using List.all_eq_true.mp counted _ (mem_objects present)
  files := by
    intro entry member
    simp [unopened] at member

/-- In a run whose operations use no stale real path, have no read-only loose place,
uproot no read-only root and edit no read-only file through a descriptor, every
read-only location is as it was. -/
theorem read_only_roots_stay (b : Broker) (ops : List Op) (world : World) (guarded : b.enforce = true)
    (apart : untied b.ns = true) (unopened : world.files = []) (counted : numbered world.host = true)
    (single : unaliased b.ns world.host.names = true)
    (meets : ∀ entry ∈ calls b ops world, sealing b entry.1 entry.2 = true) :
    ∀ path, readOnlyAt b.ns path = true → Unchanged world.host (runAll b ops world).host path := by
  intro path closed
  have intact := (run_invariant (fun world op kept meets => handle_one_intact guarded apart kept meets) ops
    world (start_intact unopened counted single) meets).2
  constructor
  · exact intact.names.same path closed
  · intro node present
    exact intact.inodes node.ino ⟨path, node, closed, present, rfl⟩

/-- The small installation with a file of the module. -/
def withFile : Names := smallNames ++ [(["srv", "app", "x"], ⟨5, .file⟩)]

/-- A file of /app, opened for reading, gets another mode through its descriptor. -/
theorem descriptor_changes_read_only_file :
    ¬ ∀ path, readOnlyAt (smallBroker smallConfig withFile).ns path = true →
      Unchanged (smallWorld withFile).host
        (runAll (smallBroker smallConfig withFile)
          [.open (absolute ["app", "x"]) (.text "r") 0o666, .fchmod 3 0o777] (smallWorld withFile)).host path := by
  intro unchanged
  have mode := (unchanged ["srv", "app", "x"] (by decide)).2 ⟨5, .file⟩ (by decide)
  exact absurd mode (by decide)

/-- The file is read and files beside it are written, moved and removed. -/
theorem read_only_file_stays :
    let ops : List Op := [.readFile (absolute ["app", "x"]) .omitted,
      .writeFile (absolute ["data", "f"]) [1] .omitted 0o666,
      .rename (absolute ["data", "f"]) (absolute ["data", "g"]), .chmod (absolute ["data", "g"]) 0o600,
      .writeFile (absolute ["app", "x"]) [2] .omitted 0o666, .unlink (absolute ["app", "x"])]
    Unchanged (smallWorld withFile).host
      (runAll (smallBroker smallConfig withFile) ops (smallWorld withFile)).host ["srv", "app", "x"] := by
  intro ops
  refine read_only_roots_stay _ ops _ rfl (by decide) rfl (by decide) (by decide) ?_ _ (by decide)
  have clear : ((calls (smallBroker smallConfig withFile) ops (smallWorld withFile)).all fun entry =>
      sealing (smallBroker smallConfig withFile) entry.1 entry.2) = true := by decide
  exact fun entry member => List.all_eq_true.mp clear entry member

end Runs

end Countinghouse.ReadOnlyRoots
