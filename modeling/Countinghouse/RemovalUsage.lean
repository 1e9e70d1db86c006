import Countinghouse.SpawnWalk
import Mathlib.Data.List.Pairwise

/-!
What the spawn walk measures and what a removal gives back, `removalUsage` of
lib/fs-broker/broker.js: after a complete removal the walk measures what it measured
before, less what was given back.

A file has its bytes once and an entry for each of its names, so what matters of a file
with names inside and outside the removed directory is whether one is left.
-/

namespace Countinghouse.RemovalUsage

open HostTree HostCalls HostEffects BrokerWorld FsBroker BrokerChecks SpawnWalk
open Program (Prog)

/-! The names under the roots. -/
section Under

variable {names : Names} {locations : List Path}

def strictlyInside (path location : Path) : Bool := inside path location && path != location

/-- Every name strictly inside a root, once. -/
def under (names : Names) (locations : List Path) : Names :=
  names.filter fun entry => locations.any fun location => strictlyInside entry.1 location

theorem mem_under {entry : Path × Node} :
    entry ∈ under names locations ↔ entry ∈ names ∧ ∃ location ∈ locations, strictlyInside entry.1 location = true := by
  simp [under]

/-- The two roots have no name in common. -/
def Apart (a b : Path) : Prop := inside a b = false ∧ inside b a = false

instance : Std.Symm Apart := ⟨fun _ _ apart => ⟨apart.2, apart.1⟩⟩

theorem apart_inside {a b path : Path} (apart : Apart a b) (first : inside path a = true) : inside path b = false := by
  by_contra second
  rw [Bool.not_eq_false, inside_iff] at second
  rw [inside_iff] at first
  rcases List.prefix_or_prefix_of_prefix first second with within | within
  · exact absurd ((inside_iff b a).mpr within) (by simp [apart.2])
  · exact absurd ((inside_iff a b).mpr within) (by simp [apart.1])

/-- Roots that are apart are walked one after the other. -/
theorem under_perm (tree : Tree names) (apart : locations.Pairwise Apart) :
    (under names locations).Perm (locations.flatMap (below names)) := by
  have nodup : (locations.flatMap (below names)).Nodup := by
    rw [List.nodup_flatMap]
    refine ⟨fun location _ => tree.below_nodup location, apart.imp ?_⟩
    intro a b apart entry first second
    have inA := (List.mem_filter.mp first).2
    have inB := (List.mem_filter.mp second).2
    simp only [Bool.and_eq_true] at inA inB
    simp [apart_inside apart inA.1] at inB
  have once : (under names locations).Nodup := tree.nodup.filter _
  rw [List.perm_ext_iff_of_nodup once nodup]
  intro entry
  rw [mem_under, List.mem_flatMap]
  constructor
  · rintro ⟨member, location, isRoot, within⟩
    exact ⟨location, isRoot, List.mem_filter.mpr ⟨member, within⟩⟩
  · rintro ⟨location, isRoot, within⟩
    exact ⟨(List.mem_filter.mp within).1, location, isRoot, (List.mem_filter.mp within).2⟩

/-- The roots on a host: real directories apart from each other, with no file that has a name under them and another
elsewhere. -/
structure Grounds (names : Names) (roots : List (Path × Path)) (locations : List Path) : Prop where
  tree : Tree names
  areRoots : List.Forall₂ (RootAt names) roots locations
  apart : locations.Pairwise Apart
  own : ∀ entry ∈ under names locations, entry.2.kind = .file →
    ∀ other ∈ names, other.2.ino = entry.2.ino → other ∈ under names locations

/-- The way to a root does not lead through what is inside one. -/
def WaysApart (names : Names) (roots : List (Path × Path)) (locations : List Path) : Prop :=
  ∀ root ∈ roots, ∀ path ∈ trail names maxLinks [] (Path.segs root.1.dropLast), ∀ location ∈ locations,
    strictlyInside path location = false

end Under

/-! The names that a removal leaves. -/
section Removed

variable {names : Names} {roots : List (Path × Path)} {locations : List Path} {p : Path}

def removed (names : Names) (p : Path) : Names := names.filter fun entry => !inside entry.1 p

theorem mem_removed {entry : Path × Node} : entry ∈ removed names p ↔ entry ∈ names ∧ inside entry.1 p = false := by
  simp [removed]

theorem removed_lookup (path : Path) :
    lookup (removed names p) path = if inside path p then none else lookup names path := by
  rw [removed, lookup_filter names (fun other => !inside other p) path]
  cases inside path p <;> simp

theorem removed_is_dir {path : Path} (outside : inside path p = false) :
    isDir (removed names p) path = isDir names path := by
  simp [isDir, removed_lookup, outside]

/-- What leads to a path outside is outside. -/
theorem outside_of_leading {path outer : Path} (outside : inside path p = false) (leading : outer <+: path) :
    inside outer p = false := by
  by_contra within
  rw [Bool.not_eq_false, inside_iff] at within
  rw [(inside_iff path p).mpr (within.trans leading)] at outside
  simp at outside

theorem removed_tree (tree : Tree names) (p : Path) : Tree (removed names p) where
  distinct := tree.distinct.sublist (List.filter_sublist.map Prod.fst)
  named := fun entry member => tree.named entry (mem_removed.mp member).1
  inDir := by
    intro entry member
    obtain ⟨there, outside⟩ := mem_removed.mp member
    rw [removed_is_dir (outside_of_leading outside (List.dropLast_prefix _))]
    exact tree.inDir entry there
  oneKind := fun a isA b isB => tree.oneKind a (mem_removed.mp isA).1 b (mem_removed.mp isB).1

theorem removed_under : under (removed names p) locations = (under names locations).filter fun entry => !inside entry.1 p := by
  rw [under, under, RemovalUsage.removed, List.filter_comm]

/-- A root does not lie inside what is strictly inside a root. -/
theorem root_stays (apart : locations.Pairwise Apart) {location other : Path} (isRoot : location ∈ locations)
    (isOther : other ∈ locations) (within : strictlyInside p other = true) : inside location p = false := by
  by_contra swallowed
  rw [Bool.not_eq_false] at swallowed
  simp only [strictlyInside, Bool.and_eq_true, bne_iff_ne, ne_eq] at within
  by_cases same : location = other
  · subst same
    exact within.2 (inside_antisymm within.1 swallowed)
  · have apart := apart.forall isRoot isOther same
    have inner := inside_trans swallowed within.1
    simp [apart.1] at inner

theorem removed_root {root : Path × Path} {location : Path} (isRoot : RootAt names root location)
    (way : ∀ path ∈ trail names maxLinks [] (Path.segs root.1.dropLast), inside path p = false)
    (stays : inside location p = false) : RootAt (removed names p) root location := by
  obtain ⟨at_leaf, opened⟩ := isRoot
  refine ⟨?_, (removed_is_dir stays).trans opened⟩
  have walked : resolve (removed names p) root.1.dropLast = resolve names root.1.dropLast := by
    apply walk_congr
    intro path onTrail
    rw [Agrees, removed_lookup, way path onTrail]
    rfl
  obtain ⟨real, leads, same⟩ := leaf_in_parent at_leaf
  have outside : inside real p = false := outside_of_leading stays ⟨_, same.symm⟩
  obtain ⟨left, found⟩ := realpath_ok_iff.mp leads
  unfold leaf at at_leaf ⊢
  rw [found] at at_leaf
  rw [walked, found]
  simpa [removed_is_dir outside] using at_leaf

theorem removed_roots (areRoots : List.Forall₂ (RootAt names) roots locations)
    (ways : ∀ root ∈ roots, ∀ path ∈ trail names maxLinks [] (Path.segs root.1.dropLast), inside path p = false)
    (stays : ∀ location ∈ locations, inside location p = false) :
    List.Forall₂ (RootAt (removed names p)) roots locations := by
  induction areRoots with
  | nil => exact .nil
  | cons first rest ih =>
      refine .cons (removed_root first (ways _ List.mem_cons_self) (stays _ List.mem_cons_self)) (ih ?_ ?_)
      · exact fun root among => ways root (List.mem_cons_of_mem _ among)
      · exact fun location among => stays location (List.mem_cons_of_mem _ among)

/-- The roots stay as they are when something strictly inside one is removed. -/
theorem Grounds.stay (grounds : Grounds names roots locations) (ways : WaysApart names roots locations) {node : Node}
    (present : (p, node) ∈ under names locations) : Grounds (removed names p) roots locations := by
  obtain ⟨_, home, isHome, within⟩ := mem_under.mp present
  have stays : ∀ location ∈ locations, inside location p = false :=
    fun location isRoot => root_stays grounds.apart isRoot isHome within
  refine ⟨removed_tree grounds.tree p, removed_roots grounds.areRoots ?_ stays, grounds.apart, ?_⟩
  · intro root isRoot path onTrail
    by_contra beyond
    rw [Bool.not_eq_false] at beyond
    have passes := ways root isRoot path onTrail home isHome
    simp only [strictlyInside, Bool.and_eq_true, bne_iff_ne, ne_eq] at within
    have reached : path = home := by simpa [strictlyInside, inside_trans beyond within.1] using passes
    exact within.2 (inside_antisymm within.1 (reached ▸ beyond))
  · intro entry member isFile other isOther same
    rw [removed_under, List.mem_filter] at member ⊢
    exact ⟨grounds.own entry member.1 isFile other (mem_removed.mp isOther).1 same, by simp [(mem_removed.mp isOther).2]⟩

end Removed

/-! The bytes of files. -/
section Bytes

variable {host : Host} {names : Names} {roots : List (Path × Path)} {locations : List Path} {p : Path}

/-- The sizes of the files among some names, each file once. -/
def fileBytes (host : Host) (entries : Names) : Nat :=
  ((fileInos entries).dedup.map fun ino => (host.inodes ino).size).sum

theorem mem_file_inos {entries : Names} {ino : Nat} :
    ino ∈ fileInos entries ↔ ∃ entry ∈ entries, entry.2.kind = .file ∧ entry.2.ino = ino := by
  simp [fileInos, List.mem_filterMap]

/-- Every name of a file under the roots is found there. -/
theorem Grounds.all_found (grounds : Grounds names roots locations) {ino : Nat}
    (isFile : ino ∈ fileInos (under names locations)) :
    nlink names ino = (fileInos (under names locations)).count ino := by
  obtain ⟨entry, member, file, same⟩ := mem_file_inos.mp isFile
  rw [List.count, fileInos, List.countP_filterMap, nlink, ← List.countP_eq_length_filter, under, List.countP_filter]
  apply List.countP_congr
  intro other isOther
  constructor
  · intro ours
    have ours : other.2.ino = ino := by simpa using ours
    have among := grounds.own entry member file other isOther (ours.trans same.symm)
    have kind := grounds.tree.oneKind other isOther entry (mem_under.mp member).1 (ours.trans same.symm)
    obtain ⟨_, home⟩ := mem_under.mp among
    simp [kind.trans file, ours, home]
  · intro both
    by_cases kind : other.2.kind = .file
    · simp only [kind, if_true, Option.map_some, Option.getD_some, Bool.and_eq_true] at both
      exact both.1
    · simp [kind] at both

/-- The bytes counted with every link found are those counted anyhow. -/
theorem Grounds.bytes_of (grounds : Grounds host.names roots locations) (wholly : Bool) :
    bytesOf host wholly (under host.names locations) = fileBytes host (under host.names locations) := by
  unfold bytesOf fileBytes
  apply congrArg List.sum
  apply List.map_congr_left
  intro ino member
  simp [grounds.all_found (List.mem_dedup.mp member)]

/-- What is lost with the names that are not kept: the files that have no name left. -/
theorem file_bytes_split (host : Host) (entries : Names) (keep : Path × Node → Bool) :
    fileBytes host entries = fileBytes host (entries.filter keep) +
      (((fileInos entries).dedup.filter fun ino => decide (ino ∉ fileInos (entries.filter keep))).map
        fun ino => (host.inodes ino).size).sum := by
  have kept : ((fileInos entries).dedup.filter fun ino => decide (ino ∈ fileInos (entries.filter keep))).Perm
      (fileInos (entries.filter keep)).dedup := by
    rw [List.perm_ext_iff_of_nodup ((List.nodup_dedup _).filter _) (List.nodup_dedup _)]
    intro ino
    rw [List.mem_filter, List.mem_dedup, List.mem_dedup, decide_eq_true_eq, and_iff_right_iff_imp]
    intro left
    obtain ⟨entry, member, isFile⟩ := mem_file_inos.mp left
    exact mem_file_inos.mpr ⟨entry, List.mem_of_mem_filter member, isFile⟩
  have split := List.filter_append_perm (fun ino => decide (ino ∈ fileInos (entries.filter keep))) (fileInos entries).dedup
  rw [fileBytes, fileBytes, ← (split.map _).sum_eq, List.map_append, List.sum_append, (kept.map _).sum_eq]
  simp only [decide_not]

/-- The names at and below a path. -/
def within (names : Names) (p : Path) : Names := names.filter fun entry => inside entry.1 p

theorem nlink_split (names : Names) (p : Path) (ino : Nat) :
    nlink names ino = nlink (within names p) ino + nlink (removed names p) ino := by
  simp only [nlink, within, removed, ← List.countP_eq_length_filter]
  exact List.countP_eq_countP_filter_add names _ _

/-- A file is lost with a path when each of its names is there. -/
theorem Grounds.lost_iff (grounds : Grounds names roots locations) {node : Node} (present : (p, node) ∈ under names locations)
    (ino : Nat) : ino ∈ fileInos (under names locations) ∧ ino ∉ fileInos (under (removed names p) locations) ↔
      ino ∈ fileInos (within names p) ∧ nlink names ino ≤ nlink (within names p) ino := by
  have none_left : nlink names ino ≤ nlink (within names p) ino ↔ ∀ other ∈ removed names p, other.2.ino ≠ ino := by
    have split := nlink_split names p ino
    have zero : nlink (removed names p) ino = 0 ↔ ∀ other ∈ removed names p, other.2.ino ≠ ino := by
      simp [nlink]
    rw [← zero]
    omega
  obtain ⟨_, home, isHome, inner⟩ := mem_under.mp present
  simp only [strictlyInside, Bool.and_eq_true, bne_iff_ne, ne_eq] at inner
  rw [none_left, removed_under]
  constructor
  · rintro ⟨isFile, gone⟩
    obtain ⟨entry, member, file, same⟩ := mem_file_inos.mp isFile
    have left (other : Path × Node) (isOther : other ∈ names) (ours : other.2.ino = ino) : inside other.1 p = true := by
      by_contra outside
      have among := grounds.own entry member file other isOther (ours.trans same.symm)
      have kind := grounds.tree.oneKind other isOther entry (mem_under.mp member).1 (ours.trans same.symm)
      exact gone (mem_file_inos.mpr ⟨other, List.mem_filter.mpr ⟨among, by simpa using outside⟩, kind.trans file, ours⟩)
    refine ⟨mem_file_inos.mpr ⟨entry, ?_, file, same⟩, ?_⟩
    · exact List.mem_filter.mpr ⟨(mem_under.mp member).1, left entry (mem_under.mp member).1 same⟩
    · intro other isOther ours
      obtain ⟨there, outside⟩ := mem_removed.mp isOther
      simp [left other there ours] at outside
  · rintro ⟨isFile, none⟩
    obtain ⟨entry, member, file, same⟩ := mem_file_inos.mp isFile
    obtain ⟨there, below⟩ := List.mem_filter.mp member
    have strictly : strictlyInside entry.1 home = true := by
      simp only [strictlyInside, inside_trans below inner.1, Bool.true_and, bne_iff_ne, ne_eq]
      exact fun reached => inner.2 (inside_antisymm inner.1 (reached ▸ below))
    refine ⟨mem_file_inos.mpr ⟨entry, mem_under.mpr ⟨there, home, isHome, strictly⟩, file, same⟩, ?_⟩
    intro left
    obtain ⟨other, among, _, ours⟩ := mem_file_inos.mp left
    obtain ⟨isUnder, outside⟩ := List.mem_filter.mp among
    exact none other (mem_removed.mpr ⟨(mem_under.mp isUnder).1, by simpa using outside⟩) ours

end Bytes

/-! What a removal gives back. -/
section Usage

variable {host : Host} {names : Names} {roots : List (Path × Path)} {locations : List Path} {p : Path} {node : Node}

theorem one_node (tree : Tree names) (member : (p, node) ∈ names) {entry : Path × Node} (isEntry : entry ∈ names)
    (same : entry.1 = p) : entry = (p, node) := by
  have found := lookup_of_mem tree.distinct isEntry
  rw [same, lookup_of_mem tree.distinct member] at found
  exact Prod.ext same (Option.some.inj found).symm

/-- Of the names at and below a path, all but its own are below. -/
theorem within_perm (tree : Tree names) (member : (p, node) ∈ names) :
    (within names p).Perm ((p, node) :: below names p) := by
  have nodup : ((p, node) :: below names p).Nodup := by
    refine List.nodup_cons.mpr ⟨fun own => ?_, tree.below_nodup p⟩
    simpa using (List.mem_filter.mp own).2
  have once : (within names p).Nodup := tree.nodup.filter _
  rw [List.perm_ext_iff_of_nodup once nodup]
  intro entry
  rw [List.mem_cons]
  constructor
  · intro inner
    obtain ⟨isEntry, inner⟩ := List.mem_filter.mp inner
    by_cases same : entry.1 = p
    · exact .inl (one_node tree member isEntry same)
    · exact .inr (List.mem_filter.mpr ⟨isEntry, by simp [inner, same]⟩)
  · rintro (own | inner)
    · exact own ▸ List.mem_filter.mpr ⟨member, inside_self p⟩
    · obtain ⟨isEntry, inner⟩ := List.mem_filter.mp inner
      simp only [Bool.and_eq_true] at inner
      exact List.mem_filter.mpr ⟨isEntry, inner.1⟩

/-- Below a name that is no directory there is nothing. -/
theorem below_leaf (tree : Tree names) (member : (p, node) ∈ names) (leaf : node.kind ≠ .dir) : below names p = [] := by
  rw [List.eq_nil_iff_forall_not_mem]
  intro entry inner
  obtain ⟨isEntry, name, rest, same⟩ := mem_below.mp inner
  have opened := tree.above rest (same ▸ isEntry : (p ++ name :: rest, entry.2) ∈ names)
  obtain ⟨dir, isDir, kind⟩ := dir_entry opened (tree.named _ member)
  have own := one_node tree member isDir rfl
  cases own
  exact leaf kind

/-- The files that are lost with a path. -/
def lost (names : Names) (locations : List Path) (p : Path) : List Nat :=
  (fileInos (under names locations)).dedup.filter fun ino => decide (ino ∉ fileInos (under (removed names p) locations))

theorem lost_nodup (names : Names) (locations : List Path) (p : Path) : (lost names locations p).Nodup :=
  (List.nodup_dedup _).filter _

theorem Grounds.mem_lost (grounds : Grounds names roots locations) (present : (p, node) ∈ under names locations) {ino : Nat} :
    ino ∈ lost names locations p ↔ ino ∈ fileInos (within names p) ∧ nlink names ino ≤ nlink (within names p) ino := by
  rw [← grounds.lost_iff present, lost, List.mem_filter, List.mem_dedup, decide_eq_true_eq]

/-- The measure of a directory, with `whollyInside`, is of the files that are lost with it. -/
theorem Grounds.lost_dir (grounds : Grounds host.names roots locations) (present : (p, node) ∈ under host.names locations)
    (isDir : node.kind = .dir) :
    (((filesBelow host.names p).filter fun ino => nlink host.names ino ≤ nlink (below host.names p) ino).map
      fun ino => (host.inodes ino).size).sum = ((lost host.names locations p).map fun ino => (host.inodes ino).size).sum := by
  have tree := grounds.tree
  have member := (mem_under.mp present).1
  have perm := within_perm tree member
  refine (List.Perm.map _ ?_).sum_eq
  have measured : ((filesBelow host.names p).filter fun ino =>
      decide (nlink host.names ino ≤ nlink (below host.names p) ino)).Nodup := (List.nodup_dedup _).filter _
  rw [List.perm_ext_iff_of_nodup measured (lost_nodup host.names locations p)]
  intro ino
  rw [grounds.mem_lost present, List.mem_filter, filesBelow, List.mem_dedup, decide_eq_true_eq]
  have inos : ino ∈ fileInos (within host.names p) ↔ ino ∈ fileInos (below host.names p) := by
    rw [(file_inos_perm perm).mem_iff]
    simp [fileInos, isDir]
  rw [inos]
  refine and_congr_right fun isFile => ?_
  obtain ⟨entry, inner, file, same⟩ := mem_file_inos.mp isFile
  have apart : node.ino ≠ ino := by
    intro equal
    have kind := tree.oneKind _ member _ (mem_below.mp inner).1 (equal.trans same.symm)
    simp [isDir, file] at kind
  have links : nlink (within host.names p) ino = nlink (below host.names p) ino := by
    rw [nlink, (perm.filter _).length_eq]
    simp [nlink, apart]
  rw [links]

/-- A name that is no directory loses its file when it is the last. -/
theorem Grounds.lost_leaf (grounds : Grounds host.names roots locations) (present : (p, node) ∈ under host.names locations)
    (leaf : node.kind ≠ .dir) :
    lastLinkBytes (statsAt host node) = ((lost host.names locations p).map fun ino => (host.inodes ino).size).sum := by
  have member := (mem_under.mp present).1
  have perm := within_perm grounds.tree member
  rw [below_leaf grounds.tree member leaf] at perm
  have single : within host.names p = [(p, node)] := List.perm_singleton.mp perm
  have isLost (ino : Nat) : ino ∈ lost host.names locations p ↔
      ino = node.ino ∧ node.kind = .file ∧ nlink host.names node.ino ≤ 1 := by
    rw [grounds.mem_lost present, single]
    by_cases file : node.kind = .file
    · by_cases same : node.ino = ino
      · simp [fileInos, nlink, file, same]
      · simp [fileInos, nlink, file, same, Ne.symm same]
    · simp [fileInos, file]
  have linked : 0 < nlink host.names node.ino := by
    rw [nlink, List.length_pos_iff_exists_mem]
    exact ⟨(p, node), List.mem_filter.mpr ⟨member, by simp⟩⟩
  by_cases last : node.kind = .file ∧ nlink host.names node.ino ≤ 1
  · have only : lost host.names locations p = [node.ino] := by
      rw [← List.perm_singleton, List.perm_ext_iff_of_nodup (lost_nodup _ _ _) (List.nodup_singleton _)]
      intro ino
      simp [isLost, last]
    have exactly : nlink host.names node.ino = 1 := by omega
    simp [only, lastLinkBytes, statsAt, Stats.isFile, Stats.size, last.1, exactly]
  · have none : lost host.names locations p = [] := by
      rw [List.eq_nil_iff_forall_not_mem]
      intro ino isIn
      exact last ((isLost ino).mp isIn).2
    have kept : ((statsAt host node).isFile && decide ((statsAt host node).nlink = 1)) = false := by
      by_contra isLast
      simp only [Bool.not_eq_false, Bool.and_eq_true, Stats.isFile, statsAt] at isLast
      exact last ⟨of_decide_eq_true isLast.1, (of_decide_eq_true isLast.2).le⟩
    simp [none, lastLinkBytes, kept]

variable {world : World} {path : Path}

theorem look_at_leaf (at_leaf : leaf host.names path = .ok p) (found : lookup host.names p = some node) (named : p ≠ []) :
    lookAt host path false = .ok (statsAt host node) := by
  simp [lookAt, HostCalls.place, at_leaf, nodeAt, named, found, statsAt]

/-- `removalUsage` gives back an entry for every name at and below the path, and the bytes of the files that are lost. -/
theorem removal_usage_runs (grounds : Grounds world.host.names roots locations)
    (present : (p, node) ∈ under world.host.names locations) (at_leaf : leaf world.host.names path = .ok p) :
    ∃ usage rest, (FsBroker.removalUsage path).run handle world = (.ok usage, rest) ∧
      usage.entries = (within world.host.names p).length ∧
      usage.bytes = ((lost world.host.names locations p).map fun ino => (world.host.inodes ino).size).sum := by
  have member := (mem_under.mp present).1
  have found := lookup_of_mem grounds.tree.distinct member
  have looked := look_at_leaf at_leaf found (grounds.tree.named _ member)
  have names := (within_perm grounds.tree member).length_eq
  have spec : (FsBroker.removalUsage path).Spec handle (fun _ _ => True)
      (fun usage _ => usage.entries = (within world.host.names p).length ∧
        usage.bytes = ((lost world.host.names locations p).map fun ino => (world.host.inodes ino).size).sum)
      (fun _ _ => False) world := by
    simp only [FsBroker.removalUsage, lstatOrNull, fsLstat, Program.spec_bind, or_null_spec, try_lstat_spec, looked,
      raised_ok_spec, Program.spec_ite, Program.spec_pure, try_measure_spec, true_and]
    by_cases isDir : node.kind = .dir
    · have opened : HostTree.isDir world.host.names p = true := by simp [HostTree.isDir, found, isDir]
      have measured : BrokerWorld.measure world.passed.host path = .ok
          ⟨(((filesBelow world.host.names p).filter fun ino =>
              nlink world.host.names ino ≤ nlink (below world.host.names p) ino).map
            fun ino => (world.host.inodes ino).size).sum, (below world.host.names p).length⟩ := by
        simp only [BrokerWorld.measure, World.passed, at_leaf, opened, if_true]
        rfl
      simp only [Stats.isDirectory, statsAt, isDir, decide_true, if_true, measured, raised_ok_spec]
      exact ⟨names.symm, grounds.lost_dir present isDir⟩
    · simp only [Stats.isDirectory, statsAt, isDir, decide_false, Bool.false_eq_true, if_false]
      rw [below_leaf grounds.tree member isDir] at names
      exact ⟨names.symm, grounds.lost_leaf present isDir⟩
  have ended := ((Program.spec_iff _ world).mp spec).2
  split at ended
  · next usage rest same => exact ⟨usage, rest, same, ended⟩
  · exact ended.elim

/-- All there is at and below a path strictly inside a root is under the roots. -/
theorem under_within (present : (p, node) ∈ under names locations) :
    ((under names locations).filter fun entry => inside entry.1 p) = within names p := by
  obtain ⟨_, home, isHome, inner⟩ := mem_under.mp present
  simp only [strictlyInside, Bool.and_eq_true, bne_iff_ne, ne_eq] at inner
  rw [under, within, List.filter_filter]
  apply List.filter_congr
  intro entry _
  cases below : inside entry.1 p with
  | false => simp
  | true =>
      have apart : entry.1 ≠ home := fun reached => inner.2 (inside_antisymm inner.1 (reached ▸ below))
      simp only [Bool.true_and, List.any_eq_true]
      exact ⟨home, isHome, by simp [strictlyInside, inside_trans below inner.1, apart]⟩

/-- The calls that remove a path. -/
def Removes (path : Path) (call : Call) : Prop := call = .unlink path ∨ ∃ recursive force, call = .rm path recursive force

/-- A removal that succeeds takes away all there is at and below the path. -/
theorem removal_complete {call : Call} (removes : Removes path call) (at_leaf : leaf world.host.names path = .ok p)
    (found : lookup world.host.names p = some node) (named : p ≠ []) (done : (world.outcome call).2 = .ok .done) :
    world.host.apply (world.outcome call).1 =
      { world.host with names := removed world.host.names p } := by
  have placed : HostCalls.place world.host.names path false = .ok p := by
    simp [HostCalls.place, at_leaf, nodeAt, named, found]
  have all : ∀ entry : Path × Node, dropped p [] entry.1 = inside entry.1 p := by simp [dropped]
  rcases removes with rfl | ⟨recursive, force, rfl⟩
  · cases failing : world.chance.fault with
    | some fault => simp [World.outcome, exec, failing, refuse] at done
    | none =>
        simp only [World.outcome, exec, failing, HostCalls.unlink, placed] at done ⊢
        by_cases opened : isDir world.host.names p = true
        · simp [opened, refuse] at done
        · simp [opened, Host.apply, Effect.none, Change.apply, removed, all]
  · simp only [World.outcome, exec, HostCalls.remove, placed] at done ⊢
    by_cases empty : p.isEmpty = true
    · exact absurd (List.isEmpty_iff.mp empty) named
    by_cases refused : (isDir world.host.names p && !recursive) = true
    · simp [named, refused, refuse] at done
    cases failing : world.chance.fault with
    | some fault => simp [named, refused, failing] at done
    | none => simp [named, refused, Host.apply, Effect.none, Change.apply, removed, all]

/-- The spawn walk counts every name under the roots and every file there once; and when a path strictly inside a root is
removed completely, it then measures what it did before, less what `removalUsage` said. -/
theorem removal_measured (world : World) (roots : List (Path × Path)) (locations : List Path) (opts : Option Options)
    (grounds : Grounds world.host.names roots locations) (ways : WaysApart world.host.names roots locations)
    (path p : Path) (node : Node) (at_leaf : leaf world.host.names path = .ok p)
    (present : (p, node) ∈ under world.host.names locations) (call : Call) (removes : Removes path call)
    (done : (world.outcome call).2 = .ok .done) :
    ∃ before after usage rest,
      SpawnWalk.measure world.host roots opts = .ok before ∧
      before.entries = (under world.host.names locations).length ∧
      before.bytes = fileBytes world.host (under world.host.names locations) ∧
      (FsBroker.removalUsage path).run handle world = (.ok usage, rest) ∧
      SpawnWalk.measure (world.host.apply (world.outcome call).1) roots opts = .ok after ∧
      (after.entries : Int) = before.entries - usage.entries ∧ (after.bytes : Int) = before.bytes - usage.bytes := by
  have member := (mem_under.mp present).1
  have found := lookup_of_mem grounds.tree.distinct member
  obtain ⟨before, walked, entries, bytes⟩ := measure_counts grounds.tree roots locations grounds.areRoots opts
  obtain ⟨usage, rest, ran, names, files⟩ := removal_usage_runs grounds present at_leaf
  have later := grounds.stay ways present
  have gone := removal_complete removes at_leaf found (grounds.tree.named _ member) done
  obtain ⟨after, walkedAgain, entriesAfter, bytesAfter⟩ :=
    @measure_counts { world.host with names := removed world.host.names p } later.tree roots locations later.areRoots opts
  have perm := under_perm grounds.tree grounds.apart
  have permAfter := under_perm later.tree later.apart
  rw [← perm.length_eq] at entries
  rw [← bytes_of_perm perm, grounds.bytes_of] at bytes
  rw [← permAfter.length_eq] at entriesAfter
  rw [← bytes_of_perm permAfter, Grounds.bytes_of later] at bytesAfter
  refine ⟨before, after, usage, rest, walked, entries, bytes, ran, gone ▸ walkedAgain, ?_, ?_⟩
  · have split := @List.length_eq_length_filter_add _ (under world.host.names locations) fun entry => inside entry.1 p
    rw [under_within present] at split
    rw [entriesAfter, entries, names, split, removed_under]
    omega
  · have split := file_bytes_split world.host (under world.host.names locations) fun entry => !inside entry.1 p
    rw [bytes, bytesAfter, files, split, removed_under]
    simp [lost, fileBytes, removed_under]

/-- A directory with a file of two names in it, a file that has a name in /tmp as well, and a link. -/
def linkedNames : Names :=
  smallNames ++ [(["srv", "data", "d"], ⟨5, .dir⟩), (["srv", "data", "d", "a"], ⟨6, .file⟩),
    (["srv", "data", "d", "b"], ⟨6, .file⟩), (["srv", "data", "d", "c"], ⟨7, .file⟩), (["srv", "tmp", "c"], ⟨7, .file⟩),
    (["srv", "data", "d", "l"], ⟨8, .link ⟨false, [.name "a"]⟩⟩)]

def linkedWorld : World :=
  { smallWorld linkedNames with host := ⟨linkedNames, fun ino => ⟨List.replicate ino 0, freshAttrs 0o644⟩, 100⟩ }

def smallRoots : List (Path × Path) := [(["srv", "data"], ["data"]), (["srv", "tmp"], ["tmp"])]

theorem linked_grounds : Grounds linkedNames smallRoots [["srv", "data"], ["srv", "tmp"]] where
  tree := ⟨by decide, by decide, by decide, by decide⟩
  areRoots := .cons ⟨rfl, rfl⟩ (.cons ⟨rfl, rfl⟩ .nil)
  apart := by unfold Apart; decide
  own := by decide

theorem linked_directory_measured :
    ∃ before after usage rest,
      SpawnWalk.measure linkedWorld.host smallRoots none = .ok before ∧
      before.entries = (under linkedNames [["srv", "data"], ["srv", "tmp"]]).length ∧
      before.bytes = fileBytes linkedWorld.host (under linkedNames [["srv", "data"], ["srv", "tmp"]]) ∧
      (FsBroker.removalUsage ["srv", "data", "d"]).run handle linkedWorld = (.ok usage, rest) ∧
      SpawnWalk.measure (linkedWorld.host.apply (linkedWorld.outcome (.rm ["srv", "data", "d"] true false)).1) smallRoots none
        = .ok after ∧
      (after.entries : Int) = before.entries - usage.entries ∧ (after.bytes : Int) = before.bytes - usage.bytes :=
  removal_measured linkedWorld smallRoots [["srv", "data"], ["srv", "tmp"]] none linked_grounds (by unfold WaysApart; decide)
    ["srv", "data", "d"] ["srv", "data", "d"] ⟨5, .dir⟩ rfl (by decide) _ (.inr ⟨true, false, rfl⟩) rfl

end Usage

end Countinghouse.RemovalUsage
