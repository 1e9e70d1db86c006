import Countinghouse.HostEffects
import Countinghouse.ModulePermissions

/-!
What the paths of a namespace mean, in both directions: lib/fs-broker/namespace.js as lib/fs-broker/index.js sets it up
for a worker, with the declared paths that parseFs of lib/module-permissions.js accepts. The host tree does not change.
-/

namespace Countinghouse.NamespacePaths

open HostTree FileNamespace HostEffects
open ModulePermissions (FsEntry parseFs isReserved isAbsolute split startsWith)
open RedisMetering (Json)

/-! The texts of paths. -/
section Texts

/-- The names of an absolute path. -/
def namesOf (path : String) : Path := (split path).drop 1

theorem split_cons {path : String} {rest : List Char} (is : path.toList = '/' :: rest) :
    split path = "" :: (rest.splitOn '/').map String.ofList := by
  simp [split, is, List.splitOn, List.splitOnP_cons_eq_if_modifyHead]

theorem absolute_cons {path : String} (absolute : isAbsolute path = true) :
    ∃ rest, path.toList = '/' :: rest := by
  have short : ['/'] <+: path.toList := by simpa [isAbsolute, startsWith] using absolute
  obtain ⟨rest, same⟩ := short
  exact ⟨rest, same.symm⟩

/-- Names one after the other, a slash before each. -/
def joined (path : Path) : List Char := path.flatMap fun name => '/' :: name.toList

theorem joined_pieces (pieces : List (List Char)) (some : pieces ≠ []) :
    joined (pieces.map String.ofList) = '/' :: ['/'].intercalate pieces := by
  induction pieces with
  | nil => exact absurd rfl some
  | cons piece pieces ih =>
      cases pieces with
      | nil => simp [joined, List.intercalate]
      | cons next pieces =>
          have tail := ih (by simp)
          simp only [joined, List.map_cons, List.flatMap_cons, String.toList_ofList] at tail ⊢
          rw [tail]
          simp [List.intercalate, List.intersperse]

theorem joined_names {path : String} (absolute : isAbsolute path = true) : joined (namesOf path) = path.toList := by
  obtain ⟨rest, is⟩ := absolute_cons absolute
  have pieces : rest.splitOn '/' ≠ [] := List.splitOn_ne_nil '/' rest
  rw [namesOf, split_cons is, List.drop_one, List.tail_cons, joined_pieces _ pieces, List.intercalate_splitOn, is]

theorem names_ne_nil {path : String} (absolute : isAbsolute path = true) : namesOf path ≠ [] := by
  intro none
  have text := joined_names absolute
  obtain ⟨rest, is⟩ := absolute_cons absolute
  rw [none, is] at text
  cases text

/-- The names of `RESERVED`, which the module's own root takes. -/
def reservedNames : List Name := ["app", "data", "tmp"]

theorem names_head_free {path : String} (absolute : isAbsolute path = true) (free : isReserved path = false)
    {name : Name} {rest : Path} (names : namesOf path = name :: rest) : name ∉ reservedNames := by
  intro taken
  have text := joined_names absolute
  rw [names, joined, List.flatMap_cons] at text
  have whole : ("/" ++ name).toList ++ joined rest = path.toList := by
    rw [← text]
    simp [joined]
  have reserved : isReserved path = true := by
    have among : "/" ++ name ∈ reservedNames.map ("/" ++ ·) := List.mem_map_of_mem taken
    unfold isReserved
    rw [Bool.or_eq_true]
    right
    apply List.any_eq_true.mpr
    refine ⟨_, among, ?_⟩
    rw [Bool.or_eq_true]
    cases rest with
    | nil =>
        left
        rw [decide_eq_true_eq]
        apply String.ext
        rw [← whole]
        simp [joined]
    | cons next rest =>
        right
        rw [startsWith, List.isPrefixOf_iff_prefix, ← whole]
        exact ⟨next.toList ++ joined rest, by simp [joined]⟩
  rw [free] at reserved
  cases reserved

@[simp] theorem joined_nil : joined [] = [] := rfl

@[simp] theorem joined_append (first rest : Path) : joined (first ++ rest) = joined first ++ joined rest :=
  List.flatMap_append

@[simp] theorem joined_cons (name : Name) (rest : Path) : joined (name :: rest) = '/' :: (name.toList ++ joined rest) := by
  simp [joined]

theorem text_joined {path : Path} (some : path ≠ []) : (pathText path).toList = joined path := by
  cases path with
  | nil => exact absurd rfl some
  | cons name rest => simp [pathText, String.toList_join, List.flatMap_map, joined]

/-- The text that `swapped` stands for: what follows the root's text, behind the target's. -/
theorem swapped_text {root target path : Path} (within : inside path root = true) (someTarget : target ≠ []) :
    (pathText (swapped root target path)).toList =
      (pathText target).toList ++ (pathText path).toList.drop (pathText root).toList.length := by
  obtain ⟨rest, rfl⟩ := (inside_iff _ _).mp within
  obtain ⟨before, last, rfl⟩ := List.eq_nil_or_concat target |>.resolve_left someTarget
  cases root with
  | nil =>
      have slash : (pathText []).toList.length = 1 := rfl
      cases rest with
      | nil => simp [swapped, pathText]
      | cons name rest =>
          rw [slash, List.nil_append, text_joined (by simp : name :: rest ≠ [])]
          simp [swapped, text_joined]
  | cons outer root => simp [swapped, text_joined]

end Texts

/-! The namespace of a worker. -/
section Worker

/-- What protectedPaths reads of the options, each path resolved against the working directory. -/
structure Options where
  cwd : Path
  modulePath : Option Path
  moduleDataPath : Option Path
  authConfigPath : Option Path
  deviceConfigPath : Option Path
  modulePolicy : Option Path

def protectedPaths (installDir : Path) (options : Options) : List Path :=
  [some installDir, options.modulePath, options.moduleDataPath,
    some (options.authConfigPath.getD (options.cwd ++ ["auth.json"])),
    some (options.deviceConfigPath.getD (options.cwd ++ ["config", "devices"])),
    options.modulePolicy].reduceOption

def accessOf : Json → Access
  | .string "rw" => .rw
  | _ => .r

/-- The declared paths, as parseFs hands them on, if it does. -/
def declaredOf (list : Json) : List (Path × Access) :=
  match parseFs list with
  | .ok parsed => parsed.1.map fun e => (namesOf e.path, accessOf e.access)
  | .error _ => []

structure Worker where
  installDir : Path
  options : Options
  moduleRoot : Path
  dataDir : Path
  tmpDir : Path
  /-- The declaration's `fs`. -/
  fs : Json
  known : List (Path × Path)

/-- What createForWorker hands to createNamespace. -/
def Worker.config (worker : Worker) : Config :=
  ⟨worker.moduleRoot, worker.dataDir, worker.tmpDir, declaredOf worker.fs,
    protectedPaths worker.installDir worker.options, worker.known⟩

def Worker.namespace (worker : Worker) (names : Names) : Namespace := prepare worker.config names

/-- The host, as it stays: no name is empty, and what a hardened server got from its parent is so. -/
structure Steady (names : Names) (known : List (Path × Path)) : Prop where
  named : ∀ entry ∈ names, "" ∉ entry.1
  known : ∀ path real, known.lookup path = some real → realpath names path = .ok real

variable {worker : Worker} {names : Names}

theorem declared_names {d : Path × Access} (member : d ∈ declaredOf worker.fs) :
    ∃ name rest, d.1 = name :: rest ∧ name ∉ reservedNames := by
  unfold declaredOf at member
  split at member
  · rename_i parsed isParsed
    obtain ⟨e, isEntry, rfl⟩ := List.mem_map.mp member
    obtain ⟨absolute, free⟩ := ModulePermissions.parse_fs_proper isParsed e isEntry
    cases names : namesOf e.path with
    | nil => exact absurd names (names_ne_nil absolute)
    | cons name rest => exact ⟨name, rest, rfl, names_head_free absolute free names⟩
  · cases member

/-- The three roots of the module's own, and the declared ones, which are called as on the host. -/
inductive Shape (worker : Worker) (names : Names) (root : Root) : Prop where
  | base (name : Name) (own : name ∈ reservedNames) (vroot : root.vroot = [name]) (place : root.name ≠ .declared)
  | declared (name : Name) (rest : Path) (free : name ∉ reservedNames) (vroot : root.vroot = name :: rest)
      (host : root.host = name :: rest) (kept : clash worker.config names root.host = none) (place : root.name = .declared)

theorem root_shape {root : Root} (member : root ∈ (worker.namespace names).roots) : Shape worker names root := by
  rcases List.mem_append.mp member with base | declared
  · simp only [List.mem_cons, List.not_mem_nil, or_false] at base
    rcases base with rfl | rfl | rfl
    · exact .base "app" (by decide) rfl (by simp [prepareRoot])
    · exact .base "data" (by decide) rfl (by simp [prepareRoot])
    · exact .base "tmp" (by decide) rfl (by simp [prepareRoot])
  · obtain ⟨d, kept, rfl⟩ := List.mem_map.mp declared
    obtain ⟨isDeclared, free⟩ := List.mem_filter.mp kept
    obtain ⟨name, rest, is, unreserved⟩ := declared_names isDeclared
    exact .declared name rest unreserved is is (by simpa [prepareRoot] using free) rfl

theorem root_real {root : Root} (member : root ∈ (worker.namespace names).roots) :
    root.real = realOf worker.known names root.host := by
  rcases List.mem_append.mp member with base | declared
  · simp only [List.mem_cons, List.not_mem_nil, or_false] at base
    rcases base with rfl | rfl | rfl <;> rfl
  · obtain ⟨d, _, rfl⟩ := List.mem_map.mp declared
    rfl

/-- Roots of the module's own with one virtual name are one root. -/
theorem base_same {root other : Root} (member : root ∈ (worker.namespace names).roots)
    (otherMember : other ∈ (worker.namespace names).roots) (place : root.name ≠ .declared)
    (otherPlace : other.name ≠ .declared) (same : root.vroot = other.vroot) : root = other := by
  have base : ∀ root ∈ (worker.namespace names).roots, root.name ≠ .declared →
      root = prepareRoot worker.config names ["app"] worker.config.moduleRoot .r false .app ∨
      root = prepareRoot worker.config names ["data"] worker.config.dataDir .rw true .data ∨
      root = prepareRoot worker.config names ["tmp"] worker.config.tmpDir .rw true .tmp := by
    intro root member place
    rcases List.mem_append.mp member with base | declared
    · simpa using base
    · obtain ⟨d, _, rfl⟩ := List.mem_map.mp declared
      exact absurd rfl place
  rcases base root member place with rfl | rfl | rfl <;>
    rcases base other otherMember otherPlace with rfl | rfl | rfl <;> first | rfl | simp [prepareRoot] at same

end Worker

/-! There and back. -/
section RoundTrip

variable {worker : Worker} {names : Names}

/-- A host path in a root has a virtual path, which is in a root and leads to the same object. -/
def RoundTrips (ns : Namespace) (names : Names) : Prop :=
  ∀ location, realpath names location = .ok location → (∃ root ∈ ns.roots, inside location root.real = true) →
    ∃ virtual host root, toVirtual ns location = some virtual ∧ FileNamespace.resolve ns virtual = .root virtual host root ∧
      realpath names host = .ok location

theorem located_outer {location rest : Path} (located : Located names (location ++ rest)) : Located names location := by
  cases rest using List.reverseRecOn with
  | nil => simpa using located
  | append_singleton rest last =>
      left
      rcases located with real | ⟨dir, name, _, is, real, _, _⟩
      · intro outer short
        exact real outer (short.trans (List.prefix_append _ _))
      · rw [← List.append_assoc] at is
        obtain ⟨same, _⟩ := List.append_inj' is rfl
        intro outer short
        exact real outer (same ▸ short.trans (List.prefix_append _ _))

theorem outer_realpath {location rest : Path} (found : realpath names (location ++ rest) = .ok (location ++ rest)) :
    realpath names location = .ok location :=
  located_realpath (located_outer (realpath_located found))

/-- Below the real path of a host path, the names are the same as below the host path. -/
theorem realpath_below {host real rest : Path} (found : realpath names host = .ok real)
    (below : realpath names (real ++ rest) = .ok (real ++ rest)) : realpath names (host ++ rest) = .ok (real ++ rest) := by
  obtain ⟨left, walked⟩ := realpath_ok_iff.mp found
  apply realpath_ok_iff.mpr
  refine ⟨left, ?_⟩
  have whole := located_walk (realpath_located below) left
  have first := located_walk (realpath_located found) left
  unfold HostTree.resolve at walked ⊢
  simp only [Path.segs, List.map_append] at walked whole first ⊢
  rw [walk_append, first] at whole
  rw [walk_append, walked]
  exact whole

/-- Where something is found in a root, the root's real path is that of the host's. -/
theorem root_realpath (steady : Steady names worker.known) {root : Root}
    (member : root ∈ (worker.namespace names).roots) {location : Path} (found : realpath names location = .ok location)
    (within : inside location root.real = true) : realpath names root.host = .ok root.real := by
  obtain ⟨rest, rfl⟩ := (inside_iff _ _).mp within
  have real := root_real member
  unfold realOf at real
  split at real
  · rename_i path known
    rw [real]
    exact steady.known _ _ known
  · split at real
    · rename_i path walked
      rw [real]
      exact walked
    · -- a path that cannot be resolved is taken as written, and then it can
      rw [← real]
      exact outer_realpath found

/-- A virtual path below a root's is placed as below that root, whichever root it is placed in. -/
theorem resolve_below {root : Root} (member : root ∈ (worker.namespace names).roots) (rest : Path) :
    ∃ placed, FileNamespace.resolve (worker.namespace names) (root.vroot ++ rest) =
      .root (root.vroot ++ rest) (root.host ++ rest) placed := by
  unfold FileNamespace.resolve
  split
  · rename_i placed first
    have within : inside (root.vroot ++ rest) placed.vroot = true := by
      have passes := List.find?_some first
      exact passes
    have among : placed ∈ (worker.namespace names).roots := mem_longest_first.mp (List.mem_of_find?_eq_some first)
    refine ⟨placed, ?_⟩
    have short := (inside_iff _ _).mp within
    cases root_shape member with
    | base name own vroot place =>
        cases root_shape among with
        | base other otherOwn otherVroot otherPlace =>
            rw [vroot, otherVroot] at short
            have same : other = name := by simpa using short
            have one := base_same among member otherPlace place (by rw [vroot, otherVroot, same])
            simp [one]
        | declared other tail free otherVroot _ _ _ =>
            rw [vroot, otherVroot] at short
            have same : other = name := by
              have parts := List.cons_prefix_cons.mp short
              exact parts.1
            exact absurd (same ▸ own) free
    | declared name tail free vroot host _ _ =>
        cases root_shape among with
        | base other otherOwn otherVroot otherPlace =>
            rw [vroot, otherVroot] at short
            have same : other = name := by simpa using short
            exact absurd (same ▸ otherOwn) free
        | declared other otherTail otherFree otherVroot otherHost _ _ =>
            obtain ⟨more, is⟩ := short
            congr 1
            rw [← is, otherVroot, otherHost, List.drop_left, ← otherVroot, is, vroot, host]
  · rename_i none
    have fails := List.find?_eq_none.mp none root (mem_longest_first.mpr member)
    exact absurd ((inside_iff _ _).mpr (List.prefix_append _ _)) fails

/-- Where `/` is the real path of a root, each name in it is the real path of another. -/
def TopCovered (ns : Namespace) (names : Names) : Prop :=
  ∀ root ∈ ns.roots, root.real = [] → ∀ name, realpath names [name] = .ok [name] → ∃ other ∈ ns.roots, other.real = [name]

theorem root_for_real_exists {ns : Namespace} {location : Path} {root : Root} (member : root ∈ ns.roots)
    (within : inside location root.real = true) : ∃ deepest, rootForReal ns location = some deepest := by
  cases holds : rootForReal ns location with
  | none =>
      have free := root_for_real_none holds member
      rw [within] at free
      cases free
  | some deepest => exact ⟨deepest, rfl⟩

theorem swapped_below {root target rest : Path} (apart : root ≠ [] ∨ rest = []) :
    swapped root target (root ++ rest) = target ++ rest := by
  cases root with
  | cons name root => simp [swapped]
  | nil =>
      cases apart with
      | inl some => exact absurd rfl some
      | inr none => simp [swapped, none]

theorem covered_round_trips (steady : Steady names worker.known) (covered : TopCovered (worker.namespace names) names) :
    RoundTrips (worker.namespace names) names := by
  intro location found inSome
  obtain ⟨outer, outerMember, outerWithin⟩ := inSome
  obtain ⟨root, holds⟩ := root_for_real_exists outerMember outerWithin
  obtain ⟨member, within⟩ := root_for_real_some holds
  have real := root_realpath steady member found within
  obtain ⟨rest, rfl⟩ := (inside_iff _ _).mp within
  have apart : root.real ≠ [] ∨ rest = [] := by
    by_cases top : root.real = []
    · cases rest with
      | nil => exact Or.inr rfl
      | cons name rest =>
          -- a name in `/` would be in a longer root
          rw [top, List.nil_append] at found holds
          have one : realpath names [name] = .ok [name] := @outer_realpath names [name] rest found
          obtain ⟨other, otherMember, otherReal⟩ := covered root member top name one
          have shorter := root_for_real_deepest holds otherMember ((inside_iff _ _).mpr ⟨rest, by rw [otherReal]; rfl⟩)
          rw [otherReal, top] at shorter
          simp at shorter
    · exact Or.inl top
  obtain ⟨placed, resolved⟩ := resolve_below member rest
  refine ⟨root.vroot ++ rest, root.host ++ rest, placed, ?_, resolved, realpath_below real found⟩
  rw [toVirtual, holds, Option.some.injEq]
  exact swapped_below apart

theorem reserved_apart {name other text : Name} (own : name ∈ reservedNames) (otherOwn : other ∈ reservedNames)
    (some : text ≠ "") : name ++ text ≠ other := by
  intro same
  have chars := congrArg String.toList same
  have text_chars : text.toList ≠ [] := by simpa using some
  simp only [reservedNames, List.mem_cons, List.not_mem_nil, or_false] at own otherOwn
  rcases own with rfl | rfl | rfl <;> rcases otherOwn with rfl | rfl | rfl <;> simp at chars <;>
    exact some chars

theorem declared_real_proper {root : Root} (member : root ∈ (worker.namespace names).roots)
    (place : root.name = .declared) : root.real ≠ [] := by
  intro top
  cases root_shape member with
  | base name own vroot other => exact other place
  | declared name rest free vroot host kept _ =>
      have passes := List.find?_eq_none.mp kept worker.installDir (by simp [Worker.config, protectedPaths, List.reduceOption])
      have real := root_real member
      rw [top] at real
      simp [overlaps, Worker.config, ← real, inside] at passes

theorem resolve_root_some {ns : Namespace} {virtual v host : Path} {root : Root}
    (resolved : FileNamespace.resolve ns virtual = .root v host root) :
    root ∈ ns.roots ∧ inside virtual root.vroot = true ∧ host = root.host ++ virtual.drop root.vroot.length := by
  unfold FileNamespace.resolve at resolved
  split at resolved
  · rename_i found first
    cases resolved
    have passes := List.find?_some first
    exact ⟨mem_longest_first.mp (List.mem_of_find?_eq_some first), passes, rfl⟩
  · split at resolved <;> cases resolved

/-- A root whose host path resolves has that for its real path. -/
theorem real_of_found (steady : Steady names worker.known) {root : Root} {location : Path}
    (member : root ∈ (worker.namespace names).roots) (found : realpath names root.host = .ok location) :
    root.real = location := by
  have real := root_real member
  unfold realOf at real
  split at real
  · rename_i path known
    have true_ := steady.known _ _ known
    rw [found] at true_
    cases true_
    exact real
  · rw [found] at real
    exact real

theorem top_name_some (steady : Steady names worker.known) {name : Name} (found : realpath names [name] = .ok [name]) :
    name ≠ "" := by
  rintro rfl
  have present : ∃ node, lookup names [""] = some node := by
    rcases realpath_located found with real | ⟨dir, last, node, is, _, present, _⟩
    · have opened := real [""] (List.prefix_refl _)
      simp only [isDir, List.isEmpty_cons, Bool.false_or, Option.any_eq_true] at opened
      obtain ⟨node, present, _⟩ := opened
      exact ⟨node, present⟩
    · exact ⟨node, present⟩
  obtain ⟨node, present⟩ := present
  exact steady.named _ (mem_of_names_lookup present) (by simp)

/-- A name in `/` that only such a root holds is handed out with the virtual name run into it, and no root is called so. -/
theorem round_trips_covered (steady : Steady names worker.known) (trips : RoundTrips (worker.namespace names) names) :
    TopCovered (worker.namespace names) names := by
  intro top topMember topReal name found
  by_contra none
  have within : inside [name] top.real = true := by simp [topReal, inside]
  obtain ⟨virtual, host, placed, there, back, real⟩ := trips [name] found ⟨top, topMember, within⟩
  obtain ⟨root, holds⟩ := root_for_real_exists topMember within
  obtain ⟨member, rootWithin⟩ := root_for_real_some holds
  have rootReal : root.real = [] := by
    rcases List.prefix_cons_iff.mp ((inside_iff _ _).mp rootWithin) with empty | ⟨rest, is, short⟩
    · exact empty
    · rw [List.prefix_nil.mp short] at is
      exact absurd ⟨root, member, is⟩ none
  cases root_shape member with
  | declared _ _ _ _ _ _ place => exact declared_real_proper member place rootReal
  | base own isOwn vroot _ =>
      have run : virtual = [own ++ name] := by
        rw [toVirtual, holds, Option.some.injEq, rootReal, vroot] at there
        exact there.symm
      obtain ⟨among, short, isHost⟩ := resolve_root_some back
      rw [run] at short isHost
      cases root_shape among with
      | base other isOther otherVroot _ =>
          rw [otherVroot] at short
          have same : other = own ++ name := by simpa using (inside_iff _ _).mp short
          exact reserved_apart isOwn isOther (top_name_some steady found) same.symm
      | declared first rest _ otherVroot otherHost _ _ =>
          rw [otherVroot] at short
          obtain ⟨same, tail⟩ := List.cons_prefix_cons.mp ((inside_iff _ _).mp short)
          have whole : host = placed.host := by
            rw [isHost, otherVroot]
            simp
          rw [whole] at real
          exact none ⟨placed, among, real_of_found steady among real⟩

end RoundTrip

/-! Above the roots, and beside them. -/
section Above

variable {ns : Namespace} {virtual : Path}

theorem resolve_apart (apart : ∀ root ∈ ns.roots, inside virtual root.vroot = false) :
    FileNamespace.resolve ns virtual =
      if ns.roots.any fun root => inside root.vroot virtual then .ancestor virtual (children ns virtual)
      else .outside virtual := by
  have none : (ns.byVroot.find? fun root => inside virtual root.vroot) = none := by
    apply List.find?_eq_none.mpr
    intro root member
    rw [apart root (mem_longest_first.mp member)]
    exact Bool.false_ne_true
  rw [FileNamespace.resolve, none]

theorem resolve_outside (apart : ∀ root ∈ ns.roots, inside virtual root.vroot = false ∧ inside root.vroot virtual = false) :
    FileNamespace.resolve ns virtual = .outside virtual := by
  rw [resolve_apart fun root member => (apart root member).1, if_neg]
  intro above
  obtain ⟨root, member, is⟩ := List.any_eq_true.mp above
  rw [(apart root member).2] at is
  cases is

theorem add_child_names (seen : List Child) (child : Child) :
    (addChild seen child).map Child.name =
      if child.name ∈ seen.map Child.name then seen.map Child.name else seen.map Child.name ++ [child.name] := by
  have known : (seen.any fun other => other.name == child.name) = decide (child.name ∈ seen.map Child.name) := by
    rw [Bool.eq_iff_iff]
    simp
  unfold addChild
  rw [known]
  by_cases there : child.name ∈ seen.map Child.name
  · simp only [there, decide_true, if_true]
    split
    · rw [List.map_map]
      apply List.map_congr_left
      intro other _
      simp only [Function.comp_apply]
      split
      · rename_i same
        exact (beq_iff_eq.mp same).symm
      · rfl
    · rfl
  · simp [there]

/-- The names that the children have are those of the entries, each once. -/
theorem add_children_names (entries seen : List Child) (once : (seen.map Child.name).Nodup) :
    ((entries.foldl addChild seen).map Child.name).Nodup ∧
      ∀ name, name ∈ (entries.foldl addChild seen).map Child.name ↔
        name ∈ seen.map Child.name ∨ name ∈ entries.map Child.name := by
  induction entries generalizing seen with
  | nil => simpa using once
  | cons entry entries ih =>
      have added := add_child_names seen entry
      by_cases there : entry.name ∈ seen.map Child.name
      · rw [if_pos there] at added
        obtain ⟨still, names⟩ := ih (addChild seen entry) (added ▸ once)
        refine ⟨still, ?_⟩
        intro name
        rw [List.foldl_cons, names, added, List.map_cons, List.mem_cons]
        constructor
        · rintro (old | new)
          · exact Or.inl old
          · exact Or.inr (Or.inr new)
        · rintro (old | same | new)
          · exact Or.inl old
          · exact Or.inl (same ▸ there)
          · exact Or.inr new
      · rw [if_neg there] at added
        have fresh : ((addChild seen entry).map Child.name).Nodup := by
          rw [added, List.nodup_append]
          refine ⟨once, List.nodup_singleton _, ?_⟩
          intro name old other new same
          rw [same, List.mem_singleton.mp new] at old
          exact there old
        obtain ⟨still, names⟩ := ih (addChild seen entry) fresh
        refine ⟨still, ?_⟩
        intro name
        rw [List.foldl_cons, names, added, List.map_cons, List.mem_append, List.mem_singleton, List.mem_cons, or_assoc]

theorem child_of_name {root : Root} {name : Name} {rest : Path} (below : root.vroot = virtual ++ name :: rest) :
    ∃ child, childOf virtual root = some child ∧ child.name = name := by
  rw [childOf, below, List.drop_left]
  cases rest with
  | nil => exact ⟨_, rfl, rfl⟩
  | cons next rest => exact ⟨_, rfl, rfl⟩

/-- The entries of a directory above the roots: the next name of each root below it. -/
theorem children_names :
    ((children ns virtual).map Child.name).Nodup ∧
      ∀ name, name ∈ (children ns virtual).map Child.name ↔
        ∃ root ∈ ns.roots, ∃ rest, root.vroot = virtual ++ name :: rest := by
  unfold children
  generalize isEntries : (ns.byVroot.filterMap fun root =>
    if inside root.vroot virtual && root.vroot != virtual then childOf virtual root else none) = entries
  obtain ⟨once, names⟩ := add_children_names entries [] List.nodup_nil
  have sorted := (List.perm_insertionSort (fun a b => textLe a.name b.name = true) (entries.foldl addChild [])).map Child.name
  refine ⟨sorted.nodup_iff.mpr once, ?_⟩
  intro name
  rw [sorted.mem_iff, names, ← isEntries]
  simp only [List.map_nil, List.not_mem_nil, false_or, List.mem_map, List.mem_filterMap]
  constructor
  · rintro ⟨child, ⟨root, member, isChild⟩, rfl⟩
    split at isChild
    · rename_i below
      rw [Bool.and_eq_true, bne_iff_ne] at below
      obtain ⟨rest, is⟩ := (inside_iff _ _).mp below.1
      cases rest with
      | nil => exact absurd (by simpa using is.symm) below.2
      | cons next rest =>
          obtain ⟨other, isOther, isName⟩ := child_of_name is.symm
          cases isChild.symm.trans isOther
          exact ⟨root, mem_longest_first.mp member, rest, by rw [isName]; exact is.symm⟩
    · cases isChild
  · rintro ⟨root, member, rest, is⟩
    obtain ⟨child, isChild, isName⟩ := child_of_name is
    refine ⟨child, ⟨root, mem_longest_first.mpr member, ?_⟩, isName⟩
    have below : (inside root.vroot virtual && root.vroot != virtual) = true := by
      rw [Bool.and_eq_true, bne_iff_ne]
      constructor
      · exact (inside_iff _ _).mpr ⟨_, is.symm⟩
      · rw [is]
        simp
    rw [if_pos below, isChild]

theorem resolve_ancestor (apart : ∀ root ∈ ns.roots, inside virtual root.vroot = false) {root : Root}
    (member : root ∈ ns.roots) (below : inside root.vroot virtual = true) :
    FileNamespace.resolve ns virtual = .ancestor virtual (children ns virtual) := by
  rw [resolve_apart apart, if_pos]
  exact List.any_eq_true.mpr ⟨root, member, below⟩

end Above

/-! The whole of it. -/
section Whole

variable {worker : Worker} {names : Names}

/-- What the namespace of a worker says of virtual and of host paths. -/
structure Sound (worker : Worker) (names : Names) (ns : Namespace) : Prop where
  roundTrips : RoundTrips ns names
  outside : ∀ virtual, (∀ root ∈ ns.roots, inside virtual root.vroot = false ∧ inside root.vroot virtual = false) →
    FileNamespace.resolve ns virtual = .outside virtual
  /-- A directory above roots, which is in none, lists the next name of each of them once. -/
  ancestor : ∀ virtual, (∀ root ∈ ns.roots, inside virtual root.vroot = false) →
    (∃ root ∈ ns.roots, inside root.vroot virtual = true) →
    ∃ kids, FileNamespace.resolve ns virtual = .ancestor virtual kids ∧ (kids.map Child.name).Nodup ∧
      ∀ name, name ∈ kids.map Child.name ↔ ∃ root ∈ ns.roots, ∃ rest, root.vroot = virtual ++ name :: rest
  /-- Neither as written nor by its real path. -/
  kept : ∀ root ∈ ns.roots, root.name = .declared → ∀ guarded ∈ worker.config.protectedPaths,
    overlaps guarded root.host = false ∧ overlaps (realOf worker.known names guarded) root.real = false

theorem kept_apart {root : Root} (member : root ∈ (worker.namespace names).roots) (place : root.name = .declared) :
    ∀ guarded ∈ worker.config.protectedPaths,
      overlaps guarded root.host = false ∧ overlaps (realOf worker.known names guarded) root.real = false := by
  intro guarded isGuarded
  cases root_shape member with
  | base _ _ _ other => exact absurd place other
  | declared name rest free vroot host kept _ =>
      have passes := List.find?_eq_none.mp kept guarded isGuarded
      simp only [Bool.or_eq_true, not_or, Bool.not_eq_true] at passes
      rw [root_real member]
      exact passes

/-- The namespace is sound unless the real path of a root is `/` and a name in `/` is of no root: `toVirtual` then cuts the
slash of that name off, while `inside` knows of it. -/
theorem namespace_sound (worker : Worker) (names : Names) (steady : Steady names worker.known) :
    Sound worker names (worker.namespace names) ↔ TopCovered (worker.namespace names) names := by
  constructor
  · intro sound
    exact round_trips_covered steady sound.roundTrips
  · intro covered
    constructor
    · exact covered_round_trips steady covered
    · intro virtual apart
      exact resolve_outside apart
    · intro virtual apart above
      obtain ⟨root, member, below⟩ := above
      exact ⟨_, resolve_ancestor apart member below, children_names⟩
    · intro root member place
      exact kept_apart member place

def options : Options := ⟨["srv"], none, some ["srv", "modules"], none, none, none⟩

def tree : Names :=
  [(["etc"], ⟨2, .dir⟩), (["package.json"], ⟨3, .file⟩), (["srv"], ⟨4, .dir⟩), (["srv", "data"], ⟨5, .dir⟩),
    (["srv", "tmp"], ⟨6, .dir⟩), (["srv", "module"], ⟨7, .dir⟩), (["srv", "logs"], ⟨8, .link ⟨true, [.name "etc"]⟩⟩)]

/-- A module with a declared path that is a link. -/
def linkWorker : Worker :=
  ⟨["usr", "countinghouse"], options, ["srv", "module"], ["srv", "data"], ["srv", "tmp"],
    .array [.object [("path", .string "/srv/logs"), ("access", .string "r")]], []⟩

theorem linked_path_round_trips : Sound linkWorker tree (linkWorker.namespace tree) := by
  have steady : Steady tree linkWorker.known := ⟨by decide, by intro path real known; cases known⟩
  apply (namespace_sound linkWorker tree steady).mpr
  intro root member top
  have below : ∀ root ∈ (linkWorker.namespace tree).roots, root.real ≠ [] := by decide +kernel
  exact absurd top (below root member)

/-- A module that is loaded from `/`. -/
def topWorker : Worker :=
  ⟨["usr", "countinghouse"], options, [], ["srv", "data"], ["srv", "tmp"], .null, []⟩

theorem top_module_loses_names :
    realpath tree ["etc"] = .ok ["etc"] ∧ toVirtual (topWorker.namespace tree) ["etc"] = some ["appetc"] ∧
      FileNamespace.resolve (topWorker.namespace tree) ["appetc"] = .outside ["appetc"] ∧
      ¬ Sound topWorker tree (topWorker.namespace tree) := by
  have found : realpath tree ["etc"] = .ok ["etc"] := by decide +kernel
  have run : toVirtual (topWorker.namespace tree) ["etc"] = some ["appetc"] := by decide +kernel
  have beside : FileNamespace.resolve (topWorker.namespace tree) ["appetc"] = .outside ["appetc"] := by decide +kernel
  refine ⟨found, run, beside, ?_⟩
  intro sound
  have top : ∃ root ∈ (topWorker.namespace tree).roots, inside ["etc"] root.real = true := by decide +kernel
  obtain ⟨virtual, host, root, there, back, _⟩ := sound.roundTrips ["etc"] found top
  cases run.symm.trans there
  rw [beside] at back
  cases back

end Whole

end Countinghouse.NamespacePaths
