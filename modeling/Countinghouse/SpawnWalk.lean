import Countinghouse.BrokerChecks
import Mathlib.Data.List.Dedup
import Mathlib.Data.List.Perm.Basic
import Mathlib.Algebra.BigOperators.Group.List.Basic

/-!
The walk that measures /data and /tmp before a worker starts, `measure` of
lib/fs-broker/spawn-walk.js: a queue of directories, each of them listed and every name in
it looked at; the files are kept by inode until the end.

`Tree` says what the names of a host are like. The walk is shown to see every name below
its roots once, whatever the order in which the directories come.
-/

namespace Countinghouse.SpawnWalk

open HostTree HostCalls HostEffects BrokerWorld BrokerChecks

/-! The walk. -/
section Walk

structure Options where
  maxListed : Option Nat
  whollyInside : Bool

/-- `(opts && opts.maxListed) || 10` -/
def maxListed (opts : Option Options) : Nat :=
  match opts.bind Options.maxListed with
  | none => 10
  | some 0 => 10
  | some limit => limit

def whollyInside (opts : Option Options) : Bool := opts.any Options.whollyInside

/-- What the walk keeps of an inode: its size and links as they were first seen, and its names as virtual paths. -/
structure Tally where
  size : Nat
  nlink : Nat
  names : List Path
  deriving DecidableEq

structure Out where
  bytes : Nat
  entries : Nat
  links : List Path
  moreLinks : Nat
  deriving DecidableEq

def Out.flag (limit : Nat) (out : Out) (v : Path) : Out :=
  if out.links.length < limit then { out with links := out.links ++ [v] }
  else { out with moreLinks := out.moreLinks + 1 }

structure State where
  /-- Directories to read: the host path and the virtual one. -/
  queue : List (Path × Path)
  inodes : List (Nat × Tally)
  out : Out
  deriving DecidableEq

variable (host : Host)

def realDirectory (dir : Path) : Except Errno Unit := do
  let st ← lookAt host dir false
  if st.isDirectory then return () else throw .ENOTDIR

def readdir (dir : Path) : Except Errno (List Name) := do
  let location ← realpath host.names dir
  if isDir host.names location then
    return (children host.names location).map fun entry => entry.1.getLast?.getD ""
  else throw .ENOTDIR

def tally (inodes : List (Nat × Tally)) (vp : Path) (st : Stats) : List (Nat × Tally) :=
  match inodes.lookup st.node.ino with
  | none => inodes ++ [(st.node.ino, ⟨st.size, st.nlink, [vp]⟩)]
  | some _ => inodes.map fun entry =>
      if entry.1 == st.node.ino then (entry.1, { entry.2 with names := entry.2.names ++ [vp] }) else entry

/-- What is kept of a name that was looked at. -/
def note (limit : Nat) (kept : List (Nat × Tally) × Out) (vp : Path) (st : Stats) : List (Nat × Tally) × Out :=
  let out := { kept.2 with entries := kept.2.entries + 1 }
  match st.node.kind with
  | .link target => (kept.1, if target.absolute then out.flag limit vp else out)
  | .dir => (kept.1, out)
  | .file => (tally kept.1 vp st, out)
  | .special => (kept.1, out)

/-- One name of a directory. -/
def visit (limit : Nat) (dir vdir : Path) (state : State) (name : Name) : Except Errno State := do
  let hp := dir ++ [name]
  let vp := vdir ++ [name]
  let st ← lookAt host hp false
  let kept := note limit (state.inodes, state.out) vp st
  return ⟨if st.isDirectory then state.queue ++ [(hp, vp)] else state.queue, kept.1, kept.2⟩

/-- `while (queue.length > 0)`; a directory is in the queue once, so the rounds are bounded by the names. -/
def drain (limit : Nat) : Nat → State → Except Errno State
  | 0, state => return state
  | rounds + 1, state =>
      match state.queue with
      | [] => return state
      | (dir, vdir) :: queue => do
          let names ← readdir host dir
          let state ← names.foldlM (visit host limit dir vdir) { state with queue := queue }
          drain limit rounds state

def measureRoot (limit : Nat) (state : State) (root : Path × Path) : Except Errno State := do
  realDirectory host root.1
  drain host limit (host.names.length + 1) { state with queue := [root] }

/-- A file counts when every name of it was found, or always. -/
def addUp (limit : Nat) (wholly : Bool) (out : Out) (i : Tally) : Out :=
  let allFound := decide (i.nlink ≤ i.names.length)
  let out := if allFound then out else out.flag limit (i.names.headD [])
  if !wholly || allFound then { out with bytes := out.bytes + i.size } else out

def measure (roots : List (Path × Path)) (opts : Option Options) : Except Errno Out := do
  let state ← roots.foldlM (measureRoot host (maxListed opts)) ⟨[], [], ⟨0, 0, [], 0⟩⟩
  return (state.inodes.map Prod.snd).foldl (addUp (maxListed opts) (whollyInside opts)) state.out

end Walk

/-! The names of a host. -/
section Trees

/-- Every name has its own path, lies in a directory, and shares its inode only with names of the same kind. -/
structure Tree (names : Names) : Prop where
  distinct : (names.map Prod.fst).Nodup
  named : ∀ entry ∈ names, entry.1 ≠ []
  inDir : ∀ entry ∈ names, isDir names entry.1.dropLast = true
  oneKind : ∀ a ∈ names, ∀ b ∈ names, a.2.ino = b.2.ino → a.2.kind = b.2.kind

theorem lookup_of_mem {names : Names} (distinct : (names.map Prod.fst).Nodup) {entry : Path × Node}
    (member : entry ∈ names) : lookup names entry.1 = some entry.2 := by
  induction names with
  | nil => simp at member
  | cons first rest ih =>
      rw [List.map_cons, List.nodup_cons] at distinct
      rw [lookup_cons]
      rcases List.mem_cons.mp member with same | later
      · rw [same, if_pos rfl]
      · have apart : first.1 ≠ entry.1 := fun same => distinct.1 (same ▸ List.mem_map_of_mem later)
        rw [if_neg apart, ih distinct.2 later]

variable {names : Names}

theorem Tree.nodup (tree : Tree names) : names.Nodup := tree.distinct.of_map

/-- A directory with a name has an entry. -/
theorem dir_entry {location : Path} (opened : isDir names location = true) (named : location ≠ []) :
    ∃ node, (location, node) ∈ names ∧ node.kind = .dir := by
  simp only [isDir, Bool.or_eq_true, List.isEmpty_iff, named, false_or, Option.any_eq_true, decide_eq_true_eq] at opened
  obtain ⟨node, found, isDir⟩ := opened
  exact ⟨node, mem_of_names_lookup found, isDir⟩

theorem mem_below {location : Path} {entry : Path × Node} :
    entry ∈ below names location ↔ entry ∈ names ∧ ∃ name rest, entry.1 = location ++ name :: rest := by
  simp only [below, List.mem_filter, Bool.and_eq_true, inside_iff, bne_iff_ne, ne_eq]
  constructor
  · rintro ⟨member, ⟨rest, same⟩, apart⟩
    cases rest with
    | nil => exact absurd (by simpa using same.symm) apart
    | cons name rest => exact ⟨member, name, rest, same.symm⟩
  · rintro ⟨member, name, rest, same⟩
    exact ⟨member, ⟨name :: rest, same.symm⟩, by simp [same]⟩

theorem mem_children {location : Path} {entry : Path × Node} :
    entry ∈ children names location ↔ entry ∈ names ∧ ∃ name, entry.1 = location ++ [name] := by
  simp only [children, List.mem_filter, Bool.and_eq_true, Bool.not_eq_true', List.isEmpty_eq_false_iff, beq_iff_eq]
  constructor
  · rintro ⟨member, named, same⟩
    exact ⟨member, entry.1.getLast named, by rw [← same, List.dropLast_append_getLast]⟩
  · rintro ⟨member, name, same⟩
    exact ⟨member, by simp [same], by simp [same]⟩

/-- What leads to a name is made of directories. -/
theorem Tree.leading (tree : Tree names) {location : Path} (rest : Path) {name : Name} {node : Node}
    (member : (location ++ rest ++ [name], node) ∈ names) : isDir names (location ++ rest) = true := by
  simpa using tree.inDir _ member

theorem Tree.above (tree : Tree names) {location : Path} (rest : Path) {name : Name} {node : Node}
    (member : (location ++ name :: rest, node) ∈ names) : isDir names location = true := by
  induction rest using List.reverseRecOn generalizing node with
  | nil => simpa using tree.inDir _ member
  | append_singleton rest last ih =>
      have opened := tree.inDir _ member
      have shorter : (location ++ name :: (rest ++ [last])).dropLast = location ++ name :: rest := by
        rw [← List.cons_append, ← List.append_assoc, List.dropLast_concat]
      rw [shorter] at opened
      obtain ⟨dir, isEntry, _⟩ := dir_entry opened (by simp)
      exact ih isEntry

/-- The subdirectories of a directory. -/
def subdirs (names : Names) (location : Path) : Names :=
  (children names location).filter fun entry => entry.2.kind = .dir

theorem below_apart {a : Path} {first second : Name} (apart : first ≠ second) {entry : Path × Node}
    (among : entry ∈ below names (a ++ [first])) : entry ∉ below names (a ++ [second]) := by
  intro also
  obtain ⟨_, name, rest, same⟩ := mem_below.mp among
  obtain ⟨_, other, more, equal⟩ := mem_below.mp also
  rw [same, List.append_assoc, List.append_assoc, List.append_cancel_left_eq] at equal
  simp only [List.singleton_append, List.cons.injEq] at equal
  exact apart equal.1

theorem Tree.below_nodup (tree : Tree names) (location : Path) : (below names location).Nodup := tree.nodup.filter _

theorem Tree.subdirs_nodup (tree : Tree names) (location : Path) :
    ((subdirs names location).flatMap fun entry => below names entry.1).Nodup := by
  rw [List.nodup_flatMap]
  refine ⟨fun dir _ => tree.nodup.filter _, ?_⟩
  have paths : ((subdirs names location).map Prod.fst).Nodup :=
    tree.distinct.sublist ((List.filter_sublist.trans List.filter_sublist).map Prod.fst)
  rw [List.Nodup, List.pairwise_map] at paths
  refine List.Pairwise.imp_of_mem ?_ paths
  intro a b isA isB apart entry among
  obtain ⟨_, first, isFirst⟩ := mem_children.mp (List.mem_filter.mp isA).1
  obtain ⟨_, second, isSecond⟩ := mem_children.mp (List.mem_filter.mp isB).1
  simp only [isFirst] at among
  simp only [isSecond]
  exact below_apart (fun same => apart (by rw [isFirst, isSecond, same])) among

/-- What lies below a directory is what is in it and what lies below its subdirectories. -/
theorem Tree.below_children (tree : Tree names) (location : Path) :
    (below names location).Perm
      (children names location ++ (subdirs names location).flatMap fun entry => below names entry.1) := by
  have apart : ((children names location) ++ (subdirs names location).flatMap fun entry => below names entry.1).Nodup := by
    refine List.Nodup.append (tree.nodup.filter _) (tree.subdirs_nodup location) ?_
    intro entry child inner
    obtain ⟨_, name, same⟩ := mem_children.mp child
    obtain ⟨dir, among, deeper⟩ := List.mem_flatMap.mp inner
    obtain ⟨_, first, named⟩ := mem_children.mp (List.mem_filter.mp among).1
    obtain ⟨_, second, rest, equal⟩ := mem_below.mp deeper
    have lengths := congrArg List.length (same.symm.trans equal)
    simp [named] at lengths
  rw [List.perm_ext_iff_of_nodup (tree.below_nodup location) apart]
  intro entry
  rw [List.mem_append, mem_below, mem_children, List.mem_flatMap]
  constructor
  · rintro ⟨member, name, rest, same⟩
    cases rest with
    | nil => exact .inl ⟨member, name, same⟩
    | cons second rest =>
        have isEntry : (location ++ [name] ++ second :: rest, entry.2) ∈ names := by
          simpa [← same] using member
        obtain ⟨node, listed, isDir⟩ := dir_entry (tree.above rest isEntry) (by simp)
        refine .inr ⟨(location ++ [name], node), ?_, ?_⟩
        · exact List.mem_filter.mpr ⟨mem_children.mpr ⟨listed, name, rfl⟩, by simpa using isDir⟩
        · exact mem_below.mpr ⟨member, second, rest, by simp [same]⟩
  · rintro (⟨member, name, same⟩ | ⟨dir, among, inner⟩)
    · exact ⟨member, name, [], same⟩
    · obtain ⟨_, name, named⟩ := mem_children.mp (List.mem_filter.mp among).1
      obtain ⟨member, second, rest, same⟩ := mem_below.mp inner
      exact ⟨member, name, second :: rest, by simp [same, named]⟩

end Trees

/-! What the walk sees. -/
section Seen

variable {host : Host}

/-- A name that the walk looks at: its virtual path and its entry. -/
abbrev Sight := Path × (Path × Node)

def statsAt (host : Host) (node : Node) : Stats := ⟨node, host.inodes node.ino, nlink host.names node.ino⟩

def noteSight (host : Host) (limit : Nat) (kept : List (Nat × Tally) × Out) (sight : Sight) : List (Nat × Tally) × Out :=
  note limit kept sight.1 (statsAt host sight.2.2)

/-- A host path in the queue leads to a directory. -/
def LeadsTo (names : Names) (item : Path × Path) (location : Path) : Prop :=
  realpath names item.1 = .ok location ∧ isDir names location = true

/-- The entry of a subdirectory, as it is put into the queue. -/
def queued (dir vdir : Path) (entry : Path × Node) : Path × Path :=
  (dir ++ [entry.1.getLast?.getD ""], vdir ++ [entry.1.getLast?.getD ""])

theorem leaf_child {names : Names} {dir location : Path} {name : Name} (leads : realpath names dir = .ok location)
    (opened : isDir names location = true) : leaf names (dir ++ [name]) = .ok (location ++ [name]) := by
  obtain ⟨left, walked⟩ := realpath_ok_iff.mp leads
  simp [leaf, walked, opened]

theorem realpath_child {names : Names} {dir location : Path} {name : Name} {node : Node}
    (leads : realpath names dir = .ok location) (opened : isDir names location = true)
    (present : lookup names (location ++ [name]) = some node) (isDirectory : node.kind = .dir) :
    realpath names (dir ++ [name]) = .ok (location ++ [name]) := by
  obtain ⟨left, walked⟩ := realpath_ok_iff.mp leads
  refine realpath_ok_iff.mpr ⟨left, ?_⟩
  rw [resolve_snoc, walked, Walk.andThen, walk_enter opened present (by simp [isDirectory]), walk_nil]

theorem look_child {dir location : Path} {name : Name} {node : Node} (leads : realpath host.names dir = .ok location)
    (opened : isDir host.names location = true) (present : lookup host.names (location ++ [name]) = some node) :
    lookAt host (dir ++ [name]) false = .ok (statsAt host node) := by
  simp [lookAt, HostCalls.place, leaf_child leads opened, nodeAt, present, statsAt]

/-- One name that is there. -/
theorem visit_sees (limit : Nat) {dir vdir location : Path} {state : State} {entry : Path × Node}
    (leads : LeadsTo host.names (dir, vdir) location) (listed : entry ∈ children host.names location)
    (present : lookup host.names entry.1 = some entry.2) :
    visit host limit dir vdir state (entry.1.getLast?.getD "") = .ok
      ⟨state.queue ++ if entry.2.kind = .dir then [queued dir vdir entry] else [],
        (noteSight host limit (state.inodes, state.out) (vdir ++ [entry.1.getLast?.getD ""], entry)).1,
        (noteSight host limit (state.inodes, state.out) (vdir ++ [entry.1.getLast?.getD ""], entry)).2⟩ := by
  obtain ⟨_, name, same⟩ := mem_children.mp listed
  obtain ⟨path, node⟩ := entry
  simp only at same present
  subst same
  have seen := look_child leads.1 leads.2 present
  simp only [List.getLast?_concat, Option.getD_some] at *
  by_cases isDirectory : node.kind = .dir
  · simp [visit, seen, Bind.bind, Except.bind, noteSight, Stats.isDirectory, statsAt, isDirectory, queued, pure, Except.pure]
  · simp [visit, seen, Bind.bind, Except.bind, noteSight, Stats.isDirectory, statsAt, isDirectory, pure, Except.pure]

def sightIn (vdir : Path) (entry : Path × Node) : Sight := (vdir ++ [entry.1.getLast?.getD ""], entry)

/-- All the names of a directory. -/
theorem visit_all (limit : Nat) {dir vdir location : Path} {state : State} (entries : Names)
    (leads : LeadsTo host.names (dir, vdir) location) (listed : ∀ entry ∈ entries, entry ∈ children host.names location)
    (present : ∀ entry ∈ entries, lookup host.names entry.1 = some entry.2) :
    (entries.map fun entry => entry.1.getLast?.getD "").foldlM (visit host limit dir vdir) state =
      let kept := (entries.map (sightIn vdir)).foldl (noteSight host limit) (state.inodes, state.out)
      .ok ⟨state.queue ++ (entries.filter fun entry => entry.2.kind = .dir).map (queued dir vdir), kept.1, kept.2⟩ := by
  induction entries generalizing state with
  | nil => simp [pure, Except.pure]
  | cons entry rest ih =>
      have first := @visit_sees host limit dir vdir location state entry leads (listed entry List.mem_cons_self)
        (present entry List.mem_cons_self)
      rw [List.map_cons, List.foldlM_cons, first]
      simp only [Bind.bind, Except.bind]
      rw [ih (fun other among => listed other (List.mem_cons_of_mem _ among))
        (fun other among => present other (List.mem_cons_of_mem _ among))]
      by_cases isDirectory : entry.2.kind = .dir
      · simp [isDirectory, sightIn]
      · simp [isDirectory, sightIn]

/-- A subdirectory is queued under the path that leads to it. -/
theorem queued_leads (tree : Tree host.names) {dir vdir location : Path} (leads : LeadsTo host.names (dir, vdir) location)
    {entry : Path × Node} (among : entry ∈ subdirs host.names location) :
    LeadsTo host.names (queued dir vdir entry) entry.1 := by
  obtain ⟨listed, isDirectory⟩ := List.mem_filter.mp among
  obtain ⟨member, name, same⟩ := mem_children.mp listed
  have present := lookup_of_mem tree.distinct member
  have isDirectory : entry.2.kind = .dir := by simpa using isDirectory
  refine ⟨?_, by simp [isDir, present, isDirectory]⟩
  rw [same] at present ⊢
  simpa [queued, same] using realpath_child leads.1 leads.2 present isDirectory

/-- The directories that are still to be read from these. -/
def work (names : Names) (locations : List Path) : Nat :=
  (locations.map fun location => 1 + (below names location).countP fun entry => entry.2.kind = .dir).sum

theorem Tree.work_step {names : Names} (tree : Tree names) (location : Path) (locations : List Path) :
    work names (location :: locations) = 1 + work names (locations ++ (subdirs names location).map Prod.fst) := by
  have split := (tree.below_children location).countP_eq fun entry => decide (entry.2.kind = .dir)
  have inner : ∀ dirs : Names, (dirs.flatMap fun entry => below names entry.1).countP
      (fun entry => decide (entry.2.kind = .dir)) + dirs.length = work names (dirs.map Prod.fst) := by
    intro dirs
    induction dirs with
    | nil => rfl
    | cons dir rest ih =>
        simp only [work, List.map_cons, List.sum_cons, List.flatMap_cons, List.countP_append, List.length_cons] at ih ⊢
        omega
  have subdirs_length : (subdirs names location).length =
      (children names location).countP fun entry => decide (entry.2.kind = .dir) := by
    rw [List.countP_eq_length_filter]
    rfl
  have rest := inner (subdirs names location)
  rw [List.countP_append] at split
  simp only [work, List.map_append, List.sum_append, List.map_cons, List.sum_cons] at rest ⊢
  omega

/-- The walk sees everything below the directories in its queue. -/
theorem drain_sees (tree : Tree host.names) (limit rounds : Nat) (state : State) (locations : List Path)
    (leads : List.Forall₂ (LeadsTo host.names) state.queue locations) (enough : work host.names locations ≤ rounds) :
    ∃ sights : List Sight, (sights.map Prod.snd).Perm (locations.flatMap (below host.names)) ∧
      let kept := sights.foldl (noteSight host limit) (state.inodes, state.out)
      drain host limit rounds state = .ok ⟨[], kept.1, kept.2⟩ := by
  induction rounds generalizing state locations with
  | zero =>
      obtain ⟨queue, inodes, out⟩ := state
      cases leads with
      | nil => exact ⟨[], List.Perm.refl _, rfl⟩
      | cons first rest =>
          simp only [work, List.map_cons, List.sum_cons] at enough
          omega
  | succ rounds ih =>
      obtain ⟨queue, inodes, out⟩ := state
      cases leads with
      | nil => exact ⟨[], List.Perm.refl _, rfl⟩
      | @cons item location queue locations first rest =>
          obtain ⟨dir, vdir⟩ := item
          let entries := children host.names location
          have visited := @visit_all host limit dir vdir location ⟨queue, inodes, out⟩ entries first (fun _ => id)
            (fun entry among => lookup_of_mem tree.distinct (mem_children.mp among).1)
          have more : List.Forall₂ (LeadsTo host.names)
              (queue ++ (subdirs host.names location).map (queued dir vdir))
              (locations ++ (subdirs host.names location).map Prod.fst) := by
            refine List.rel_append rest ?_
            rw [List.forall₂_map_left_iff, List.forall₂_map_right_iff, List.forall₂_same]
            exact fun entry among => queued_leads tree first among
          have less : work host.names (locations ++ (subdirs host.names location).map Prod.fst) ≤ rounds := by
            have step := tree.work_step location locations
            omega
          let kept := (entries.map (sightIn vdir)).foldl (noteSight host limit) (inodes, out)
          obtain ⟨later, seen, drained⟩ := ih ⟨_, kept.1, kept.2⟩ _ more less
          refine ⟨entries.map (sightIn vdir) ++ later, ?_, ?_⟩
          · have heads : (entries.map (sightIn vdir)).map Prod.snd = entries := by simp [sightIn, Function.comp_def]
            rw [List.map_append, heads, List.flatMap_cons]
            refine ((seen.append_left entries)).trans ?_
            rw [List.flatMap_append, List.flatMap_map]
            refine (List.perm_append_comm.append_left entries).trans ?_
            rw [← List.append_assoc]
            exact (tree.below_children location).symm.append_right _
          · rw [List.foldl_append]
            have listing : readdir host dir = .ok (entries.map fun entry => entry.1.getLast?.getD "") := by
              simp [readdir, first.1, first.2, Bind.bind, Except.bind, pure, Except.pure, entries]
            simp only [drain, listing, Bind.bind, Except.bind, visited]
            exact drained

/-- The names below a directory are enough rounds for it. -/
theorem work_root (location : Path) : work host.names [location] ≤ host.names.length + 1 := by
  have bound : (below host.names location).countP (fun entry => decide (entry.2.kind = .dir)) ≤ host.names.length :=
    List.countP_le_length.trans (List.length_filter_le _ _)
  simp only [work, List.map_cons, List.map_nil, List.sum_cons, List.sum_nil]
  omega

/-- A root of the walk: its own name is a real directory. -/
def RootAt (names : Names) (root : Path × Path) (location : Path) : Prop :=
  leaf names root.1 = .ok location ∧ isDir names location = true

theorem dir_not_link {names : Names} (tree : Tree names) {location : Path} (opened : isDir names location = true) :
    isLink names location = false := by
  by_cases named : location = []
  · cases found : lookup names location with
    | none => simp [isLink, found]
    | some node => exact absurd named (tree.named _ (mem_of_names_lookup found))
  · obtain ⟨node, member, isDirectory⟩ := dir_entry opened named
    obtain ⟨ino, kind⟩ := node
    have found := lookup_of_mem tree.distinct member
    simp only at isDirectory found
    simp [isLink, found, isDirectory]

theorem RootAt.leads {names : Names} (tree : Tree names) {root : Path × Path} {location : Path}
    (isRoot : RootAt names root location) : LeadsTo names root location := by
  obtain ⟨at_leaf, opened⟩ := isRoot
  rcases resolve_by_leaf at_leaf (dir_not_link tree opened) with ⟨_, left, walked⟩ | ⟨absent, _⟩
  · exact ⟨realpath_ok_iff.mpr ⟨left, walked⟩, opened⟩
  · by_cases named : location = []
    · simp [nodeAt, named] at absent
    · obtain ⟨node, member, _⟩ := dir_entry opened named
      simp [nodeAt, named, lookup_of_mem tree.distinct member] at absent

theorem RootAt.isDirectory (tree : Tree host.names) {root : Path × Path} {location : Path}
    (isRoot : RootAt host.names root location) : realDirectory host root.1 = .ok () := by
  obtain ⟨at_leaf, opened⟩ := isRoot
  have seen : ∃ st, lookAt host root.1 false = .ok st ∧ st.isDirectory = true := by
    by_cases named : location = []
    · exact ⟨⟨⟨rootIno, .dir⟩, host.inodes rootIno, nlink host.names rootIno⟩,
        by simp [lookAt, HostCalls.place, at_leaf, named, nodeAt], rfl⟩
    · obtain ⟨node, member, isDirectory⟩ := dir_entry opened named
      have found := lookup_of_mem tree.distinct member
      exact ⟨⟨node, host.inodes node.ino, nlink host.names node.ino⟩,
        by simp [lookAt, HostCalls.place, at_leaf, nodeAt, named, found], by simpa [Stats.isDirectory] using isDirectory⟩
  obtain ⟨st, looked, isDirectory⟩ := seen
  simp [realDirectory, looked, isDirectory, Bind.bind, Except.bind, pure, Except.pure]

/-- The walk sees everything below its roots. -/
theorem roots_seen (tree : Tree host.names) (limit : Nat) (roots : List (Path × Path)) (locations : List Path)
    (areRoots : List.Forall₂ (RootAt host.names) roots locations) (state : State) (rested : state.queue = []) :
    ∃ sights : List Sight, (sights.map Prod.snd).Perm (locations.flatMap (below host.names)) ∧
      let kept := sights.foldl (noteSight host limit) (state.inodes, state.out)
      roots.foldlM (measureRoot host limit) state = .ok ⟨[], kept.1, kept.2⟩ := by
  induction areRoots generalizing state with
  | nil =>
      obtain ⟨queue, inodes, out⟩ := state
      subst rested
      exact ⟨[], List.Perm.refl _, rfl⟩
  | @cons root location roots locations isRoot rest ih =>
      have leads : List.Forall₂ (LeadsTo host.names) [root] [location] := .cons (isRoot.leads tree) .nil
      obtain ⟨first, firstSeen, drained⟩ := drain_sees tree limit (host.names.length + 1)
        { state with queue := [root] } [location] leads (work_root location)
      simp only [List.flatMap_cons, List.flatMap_nil, List.append_nil] at firstSeen
      let kept := first.foldl (noteSight host limit) (state.inodes, state.out)
      obtain ⟨later, laterSeen, others⟩ := ih ⟨[], kept.1, kept.2⟩ rfl
      refine ⟨first ++ later, ?_, ?_⟩
      · rw [List.map_append, List.flatMap_cons]
        exact firstSeen.append laterSeen
      · rw [List.foldlM_cons, List.foldl_append]
        simp only [measureRoot, isRoot.isDirectory tree, Bind.bind, Except.bind, drained]
        exact others

end Seen

/-! What is kept of what was seen. -/
section Kept

variable {host : Host}

/-- The inodes of the names that are regular files, each as often as it has such a name. -/
def fileInos (entries : Names) : List Nat :=
  entries.filterMap fun entry => if entry.2.kind = .file then some entry.2.ino else none

/-- The table has every file that was seen, once, with the number of its names. -/
structure Tallied (host : Host) (seen : Names) (inodes : List (Nat × Tally)) : Prop where
  keys : (inodes.map Prod.fst).Nodup
  known : ∀ ino, ino ∈ inodes.map Prod.fst ↔ ino ∈ fileInos seen
  told : ∀ entry ∈ inodes, entry.2.size = (host.inodes entry.1).size ∧ entry.2.nlink = nlink host.names entry.1 ∧
    entry.2.names.length = (fileInos seen).count entry.1

theorem file_inos_snoc (seen : Names) (entry : Path × Node) :
    fileInos (seen ++ [entry]) = fileInos seen ++ if entry.2.kind = .file then [entry.2.ino] else [] := by
  by_cases isFile : entry.2.kind = .file
  · simp [fileInos, isFile]
  · simp [fileInos, isFile]

theorem lookup_none_iff {inodes : List (Nat × Tally)} {ino : Nat} :
    inodes.lookup ino = none ↔ ino ∉ inodes.map Prod.fst := by
  rw [List.lookup_eq_none_iff, List.mem_map]
  constructor
  · rintro apart ⟨entry, among, same⟩
    exact absurd same.symm (by simpa using apart entry among)
  · intro absent entry among
    simpa using fun same : ino = entry.1 => absent ⟨entry, among, same.symm⟩

theorem tally_tallied {seen : Names} {inodes : List (Nat × Tally)} (tallied : Tallied host seen inodes) (vp : Path)
    (entry : Path × Node) (isFile : entry.2.kind = .file) :
    Tallied host (seen ++ [entry]) (tally inodes vp (statsAt host entry.2)) := by
  have more : fileInos (seen ++ [entry]) = fileInos seen ++ [entry.2.ino] := by rw [file_inos_snoc, if_pos isFile]
  unfold tally
  cases found : inodes.lookup (statsAt host entry.2).node.ino with
  | none =>
      have absent : entry.2.ino ∉ inodes.map Prod.fst := lookup_none_iff.mp found
      have unseen : entry.2.ino ∉ fileInos seen := fun member => absent ((tallied.known _).mpr member)
      refine ⟨?_, ?_, ?_⟩
      · rw [List.map_append]
        refine List.nodup_append.mpr ⟨tallied.keys, List.nodup_singleton _, ?_⟩
        intro ino old other new same
        rw [same, List.mem_singleton.mp new] at old
        exact absent old
      · intro ino
        rw [more, List.mem_append, ← tallied.known]
        simp [statsAt]
      · intro other among
        rw [more, List.count_append]
        rcases List.mem_append.mp among with old | new
        · have apart : entry.2.ino ≠ other.1 := fun same => absent (same ▸ List.mem_map_of_mem old)
          simpa [apart] using tallied.told other old
        · rw [List.mem_singleton.mp new]
          simp [statsAt, Stats.size, List.count_eq_zero_of_not_mem unseen]
  | some kept =>
      have present : entry.2.ino ∈ inodes.map Prod.fst := by
        by_contra absent
        rw [show (statsAt host entry.2).node.ino = entry.2.ino from rfl, lookup_none_iff.mpr absent] at found
        simp at found
      have sameKeys : ((inodes.map fun other => if other.1 == (statsAt host entry.2).node.ino then
          (other.1, { other.2 with names := other.2.names ++ [vp] }) else other).map Prod.fst) = inodes.map Prod.fst := by
        rw [List.map_map]
        apply List.map_congr_left
        intro other _
        by_cases same : other.1 = entry.2.ino <;> simp [statsAt, same]
      refine ⟨sameKeys ▸ tallied.keys, ?_, ?_⟩
      · intro ino
        rw [sameKeys, more, List.mem_append, tallied.known]
        constructor
        · exact .inl
        · rintro (old | new)
          · exact old
          · rw [List.mem_singleton.mp new]
            exact (tallied.known _).mp present
      · intro other among
        obtain ⟨before, isBefore, rfl⟩ := List.mem_map.mp among
        obtain ⟨size, links, names⟩ := tallied.told before isBefore
        rw [more, List.count_append]
        by_cases same : before.1 = entry.2.ino
        · rw [same] at size links names
          simp [statsAt, same, names, size, links]
        · have apart : entry.2.ino ≠ before.1 := fun equal => same equal.symm
          simpa [statsAt, same, apart] using ⟨size, links, names⟩

theorem note_tallied {seen : Names} (limit : Nat) (kept : List (Nat × Tally) × Out) (tallied : Tallied host seen kept.1)
    (sight : Sight) : Tallied host (seen ++ [sight.2]) (noteSight host limit kept sight).1 := by
  by_cases isFile : sight.2.2.kind = .file
  · have noted : (noteSight host limit kept sight).1 = tally kept.1 sight.1 (statsAt host sight.2.2) := by
      simp [noteSight, note, statsAt, isFile]
    exact noted ▸ tally_tallied tallied sight.1 sight.2 isFile
  · have noted : (noteSight host limit kept sight).1 = kept.1 := by
      cases kind : sight.2.2.kind <;> simp_all [noteSight, note, statsAt]
    have same : fileInos (seen ++ [sight.2]) = fileInos seen := by rw [file_inos_snoc, if_neg isFile, List.append_nil]
    rw [noted]
    exact ⟨tallied.keys, same ▸ tallied.known, same ▸ tallied.told⟩

theorem flag_counts (limit : Nat) (out : Out) (v : Path) :
    (out.flag limit v).bytes = out.bytes ∧ (out.flag limit v).entries = out.entries := by
  unfold Out.flag
  split <;> exact ⟨rfl, rfl⟩

theorem note_counts (limit : Nat) (kept : List (Nat × Tally) × Out) (sight : Sight) :
    (noteSight host limit kept sight).2.bytes = kept.2.bytes ∧
      (noteSight host limit kept sight).2.entries = kept.2.entries + 1 := by
  unfold noteSight note
  split
  · dsimp only
    split
    · exact flag_counts limit _ _
    · exact ⟨rfl, rfl⟩
  · exact ⟨rfl, rfl⟩
  · exact ⟨rfl, rfl⟩
  · exact ⟨rfl, rfl⟩

/-- The table and the counts after the whole walk. -/
theorem notes_kept (limit : Nat) (sights : List Sight) {seen : Names} (kept : List (Nat × Tally) × Out)
    (tallied : Tallied host seen kept.1) :
    Tallied host (seen ++ sights.map Prod.snd) (sights.foldl (noteSight host limit) kept).1 ∧
      (sights.foldl (noteSight host limit) kept).2.bytes = kept.2.bytes ∧
      (sights.foldl (noteSight host limit) kept).2.entries = kept.2.entries + sights.length := by
  induction sights generalizing seen kept with
  | nil => simpa using tallied
  | cons sight rest ih =>
      obtain ⟨later, bytes, entries⟩ := ih _ (note_tallied limit kept tallied sight)
      obtain ⟨noBytes, oneEntry⟩ := @note_counts host limit kept sight
      rw [List.foldl_cons]
      refine ⟨by simpa using later, bytes.trans noBytes, ?_⟩
      rw [entries, oneEntry, List.length_cons]
      omega

/-- What a file adds to the bytes. -/
def Tally.adds (wholly : Bool) (i : Tally) : Nat := if !wholly || decide (i.nlink ≤ i.names.length) then i.size else 0

theorem added_up (limit : Nat) (wholly : Bool) (tallies : List Tally) (out : Out) :
    (tallies.foldl (addUp limit wholly) out).bytes = out.bytes + (tallies.map (Tally.adds wholly)).sum ∧
      (tallies.foldl (addUp limit wholly) out).entries = out.entries := by
  induction tallies generalizing out with
  | nil => exact ⟨rfl, rfl⟩
  | cons i rest ih =>
      obtain ⟨bytes, entries⟩ := ih (addUp limit wholly out i)
      have one : (addUp limit wholly out i).bytes = out.bytes + i.adds wholly ∧
          (addUp limit wholly out i).entries = out.entries := by
        unfold addUp Tally.adds
        dsimp only
        by_cases allFound : i.nlink ≤ i.names.length <;> cases wholly <;> simp [allFound, flag_counts]
      rw [List.foldl_cons, bytes, entries, one.1, one.2, List.map_cons, List.sum_cons, Nat.add_assoc]
      exact ⟨rfl, rfl⟩

/-- The bytes of the files among some names, each file once. -/
def bytesOf (host : Host) (wholly : Bool) (entries : Names) : Nat :=
  ((fileInos entries).dedup.map fun ino =>
    if !wholly || decide (nlink host.names ino ≤ (fileInos entries).count ino) then (host.inodes ino).size else 0).sum

theorem file_inos_perm {first second : Names} (same : first.Perm second) : (fileInos first).Perm (fileInos second) :=
  same.filterMap _

theorem bytes_of_perm {first second : Names} (same : first.Perm second) (wholly : Bool) :
    bytesOf host wholly first = bytesOf host wholly second := by
  have inos := file_inos_perm same
  unfold bytesOf
  simp only [inos.count_eq]
  exact (inos.dedup.map _).sum_eq

theorem tallied_bytes {seen : Names} {inodes : List (Nat × Tally)} (tallied : Tallied host seen inodes) (wholly : Bool) :
    ((inodes.map Prod.snd).map (Tally.adds wholly)).sum = bytesOf host wholly seen := by
  have keys : (inodes.map Prod.fst).Perm (fileInos seen).dedup := by
    rw [List.perm_ext_iff_of_nodup tallied.keys (List.nodup_dedup _)]
    intro ino
    rw [tallied.known, List.mem_dedup]
  rw [bytesOf, ← (keys.map _).sum_eq, List.map_map, List.map_map]
  apply congrArg List.sum
  apply List.map_congr_left
  intro entry among
  obtain ⟨size, links, names⟩ := tallied.told entry among
  simp [Tally.adds, size, links, names]

/-- The walk counts every name below its roots once, and the bytes of every file there once. -/
theorem measure_counts (tree : Tree host.names) (roots : List (Path × Path)) (locations : List Path)
    (areRoots : List.Forall₂ (RootAt host.names) roots locations) (opts : Option Options) :
    ∃ out, measure host roots opts = .ok out ∧
      out.entries = (locations.flatMap (below host.names)).length ∧
      out.bytes = bytesOf host (whollyInside opts) (locations.flatMap (below host.names)) := by
  obtain ⟨sights, seen, walked⟩ := roots_seen tree (maxListed opts) roots locations areRoots ⟨[], [], ⟨0, 0, [], 0⟩⟩ rfl
  have start : Tallied host [] [] := ⟨List.nodup_nil, fun ino => Iff.rfl, fun _ member => absurd member List.not_mem_nil⟩
  obtain ⟨tallied, noBytes, entries⟩ := notes_kept (maxListed opts) sights ([], ⟨0, 0, [], 0⟩) start
  rw [List.nil_append] at tallied
  obtain ⟨bytes, unchanged⟩ := added_up (maxListed opts) (whollyInside opts)
    ((sights.foldl (noteSight host (maxListed opts)) ([], ⟨0, 0, [], 0⟩)).1.map Prod.snd)
    (sights.foldl (noteSight host (maxListed opts)) ([], ⟨0, 0, [], 0⟩)).2
  refine ⟨_, by rw [measure, walked]; rfl, ?_, ?_⟩
  · rw [unchanged, entries, ← seen.length_eq, List.length_map, Nat.zero_add]
  · rw [bytes, noBytes, tallied_bytes tallied, bytes_of_perm seen, Nat.zero_add]

theorem sum_filter (size : Nat → Nat) (keep : Nat → Bool) (inos : List Nat) :
    (inos.map fun ino => if keep ino then size ino else 0).sum = ((inos.filter keep).map size).sum := by
  induction inos with
  | nil => rfl
  | cons ino rest ih => by_cases kept : keep ino = true <;> simp [kept, ih]

/-- What the broker is answered of a directory is the walk's, with `whollyInside`. -/
theorem broker_measure_walks (tree : Tree host.names) (path vroot location : Path)
    (isRoot : RootAt host.names (path, vroot) location) :
    ∃ out, measure host [(path, vroot)] (some ⟨none, true⟩) = .ok out ∧
      BrokerWorld.measure host path = .ok ⟨out.bytes, out.entries⟩ := by
  obtain ⟨out, walked, entries, bytes⟩ := measure_counts tree [(path, vroot)] [location] (.cons isRoot .nil) (some ⟨none, true⟩)
  refine ⟨out, walked, ?_⟩
  simp only [List.flatMap_cons, List.flatMap_nil, List.append_nil] at entries bytes
  have counts : ∀ ino ∈ (fileInos (below host.names location)).dedup,
      nlink (below host.names location) ino = (fileInos (below host.names location)).count ino := by
    intro ino member
    obtain ⟨entry, inner, isFile⟩ := List.mem_filterMap.mp (List.mem_dedup.mp member)
    have file : entry.2.kind = .file ∧ entry.2.ino = ino := by simpa using isFile
    rw [List.count, fileInos, List.countP_filterMap, nlink, ← List.countP_eq_length_filter]
    apply List.countP_congr
    intro other isOther
    by_cases ours : other.2.ino = ino
    · have kind := tree.oneKind other (mem_below.mp isOther).1 entry (mem_below.mp inner).1 (ours.trans file.2.symm)
      simp [kind.trans file.1, ours]
    · by_cases kind : other.2.kind = .file <;> simp [kind, ours]
  have wholly : ((filesBelow host.names location).filter fun ino =>
      decide (nlink host.names ino ≤ nlink (below host.names location) ino)) =
      (fileInos (below host.names location)).dedup.filter fun ino =>
        decide (nlink host.names ino ≤ (fileInos (below host.names location)).count ino) :=
    List.filter_congr fun ino member => by rw [counts ino member]
  simp only [bytesOf, whollyInside, Option.any_some, Bool.not_true, Bool.false_or, sum_filter] at bytes
  simp only [BrokerWorld.measure, isRoot.1, isRoot.2, if_true, entries, bytes, wholly]

end Kept

end Countinghouse.SpawnWalk
