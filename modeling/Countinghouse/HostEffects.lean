import Countinghouse.HostCalls

/-!
What a host call can do to the tree: where it acts (`sites`), which names it adds,
drops or moves (`Alters`), and what stays as it was.
-/

namespace Countinghouse.HostEffects

open HostTree HostCalls

/-! Names after one change. -/
section Changes

theorem lookup_cons (entry : Path × Node) (rest : Names) (path : Path) :
    lookup (entry :: rest) path = if entry.1 = path then some entry.2 else lookup rest path := by
  by_cases same : entry.1 = path
  · simp [lookup, same]
  · simp [lookup, same]

theorem lookup_add (names : Names) (location path : Path) (node : Node) :
    lookup (Change.apply names (.add location node)) path =
      if location = path then some node else lookup names path :=
  lookup_cons (location, node) names path

theorem lookup_filter (names : Names) (keep : Path → Bool) (path : Path) :
    lookup (names.filter fun entry => keep entry.1) path =
      if keep path then lookup names path else none := by
  induction names with
  | nil => simp [lookup]
  | cons entry rest ih =>
      by_cases kept : keep entry.1 = true
      · rw [List.filter_cons_of_pos (by simpa using kept), lookup_cons, lookup_cons, ih]
        by_cases same : entry.1 = path
        · simp [same, same ▸ kept]
        · simp [same]
      · rw [List.filter_cons_of_neg (by simpa using kept), lookup_cons, ih]
        by_cases same : entry.1 = path
        · simp [same ▸ kept]
        · simp [same]

theorem lookup_drop (names : Names) (location path : Path) (spared : List Path) :
    lookup (Change.apply names (.drop location spared)) path =
      if dropped location spared path then none else lookup names path := by
  have kept := lookup_filter names (fun other => !dropped location spared other) path
  simp only [Change.apply, kept]
  cases dropped location spared path <;> simp

/-- Only the names below `source` arrive below `dest`. -/
theorem moved_eq_iff (source dest other path : Path) (outside : inside other dest = false) :
    moved source dest other = path ↔
      if inside path dest then other = source ++ path.drop dest.length
      else other = path ∧ inside path source = false := by
  unfold moved
  by_cases below : inside other source = true
  · obtain ⟨rest, rfl⟩ := (inside_iff _ _).mp below
    simp only [below, if_true, List.drop_left]
    constructor
    · intro same
      subst same
      have arrived : inside (dest ++ rest) dest = true := (inside_iff _ _).mpr (List.prefix_append _ _)
      simp [arrived]
    · intro same
      by_cases arrives : inside path dest = true
      · obtain ⟨tail, rfl⟩ := (inside_iff _ _).mp arrives
        simp [arrives] at same
        rw [same]
      · simp only [arrives, Bool.false_eq_true, if_false] at same
        rw [← same.1, below] at same
        exact absurd same.2 (by simp)
  · simp only [below, Bool.false_eq_true, if_false]
    constructor
    · intro same
      subst same
      simp [outside, below]
    · intro same
      by_cases arrives : inside path dest = true
      · simp only [arrives, if_true] at same
        have under : inside other source = true :=
          (inside_iff _ _).mpr (same ▸ List.prefix_append _ _)
        exact absurd under below
      · simp only [arrives, Bool.false_eq_true, if_false] at same
        exact same.1

theorem lookup_move (names : Names) (source dest path : Path) :
    lookup (Change.apply names (.move source dest)) path =
      if inside path dest then
        if inside (source ++ path.drop dest.length) dest then none
        else lookup names (source ++ path.drop dest.length)
      else if inside path source then none else lookup names path := by
  simp only [Change.apply]
  induction names with
  | nil => simp [lookup]
  | cons entry rest ih =>
      by_cases gone : inside entry.1 dest = true
      · rw [List.filter_cons_of_neg (by simp [gone]), ih, lookup_cons, lookup_cons]
        by_cases arrives : inside path dest = true
        · by_cases back : inside (source ++ path.drop dest.length) dest = true
          · simp [arrives, back]
          · have other : entry.1 ≠ source ++ path.drop dest.length := fun same => back (same ▸ gone)
            simp [arrives, back, other]
        · have other : entry.1 ≠ path := fun same => arrives (same ▸ gone)
          simp [arrives, other]
      · have outside : inside entry.1 dest = false := by simpa using gone
        have hits := moved_eq_iff source dest entry.1 path outside
        rw [List.filter_cons_of_pos (by simp [outside]), List.map_cons, lookup_cons, ih, lookup_cons,
          lookup_cons]
        simp only [hits]
        by_cases arrives : inside path dest = true
        · by_cases same : entry.1 = source ++ path.drop dest.length
          · simp [arrives, same, same ▸ outside]
          · simp [arrives, same]
        · by_cases under : inside path source = true
          · simp [arrives, under]
          · simp [arrives, under]

end Changes

/-! A path, its directory and its last name. -/
section Leaves

variable {names : Names}

theorem realpath_ok_iff {path location : Path} :
    realpath names path = .ok location ↔ ∃ left, resolve names path = .found location left := by
  unfold realpath
  cases resolve names path <;> simp

theorem realpath_located {path location : Path} (found : realpath names path = .ok location) :
    Located names location := by
  obtain ⟨left, walked⟩ := realpath_ok_iff.mp found
  exact (walk_located names maxLinks [] (Path.segs path) (Or.inl (real_root names))).1 location left walked

theorem located_walk {location : Path} (located : Located names location) (links : Nat) :
    walk names links [] (Path.segs location) = .found location links := by
  rcases located with real | ⟨dir, name, node, rfl, real, present, plain⟩
  · have walked := walk_real names links location [] real
    rwa [List.append_nil, walk_nil] at walked
  · have walked := walk_real names links dir [.name name] real
    rw [walk_enter (real dir (List.prefix_refl dir)) present plain, walk_nil] at walked
    simpa [Path.segs] using walked

/-- A real location is its own real path. -/
theorem located_realpath {location : Path} (located : Located names location) :
    realpath names location = .ok location :=
  realpath_ok_iff.mpr ⟨maxLinks, located_walk located maxLinks⟩

theorem resolve_snoc (dir : Path) (name : Name) :
    resolve names (dir ++ [name]) = (resolve names dir).andThen names [.name name] := by
  unfold resolve
  rw [← walk_append]
  simp [Path.segs]

/-- A walk that gets as far as the last name found the directory before it. -/
theorem resolve_parent {path : Path} (reaches : ∀ code, resolve names path ≠ .failed code) :
    ∃ real, realpath names path.dropLast = .ok real := by
  cases path using List.reverseRecOn with
  | nil => exact ⟨[], rfl⟩
  | append_singleton dir name =>
      rw [List.dropLast_concat]
      rw [resolve_snoc] at reaches
      cases walked : resolve names dir with
      | found real left => exact ⟨real, realpath_ok_iff.mpr ⟨left, walked⟩⟩
      | missing location left => simp [walked, Walk.andThen] at reaches
      | failed code => simp [walked, Walk.andThen] at reaches

theorem realpath_parent {path location : Path} (found : realpath names path = .ok location) :
    ∃ real, realpath names path.dropLast = .ok real := by
  obtain ⟨left, walked⟩ := realpath_ok_iff.mp found
  exact resolve_parent fun code failed => by simp [walked] at failed

/-- The leaf of a path lies in the real path of its directory. -/
theorem leaf_in_parent {path location : Path} (at_leaf : leaf names path = .ok location) :
    ∃ real, realpath names path.dropLast = .ok real ∧ location = real ++ path.getLast?.toList := by
  cases path using List.reverseRecOn with
  | nil =>
      obtain rfl : [] = location := Except.ok.inj at_leaf
      exact ⟨[], rfl, rfl⟩
  | append_singleton dir name =>
      unfold leaf at at_leaf
      rw [List.getLast?_concat, List.dropLast_concat] at at_leaf
      rw [List.getLast?_concat, List.dropLast_concat]
      cases walked : resolve names dir with
      | found real left =>
          simp only [walked] at at_leaf
          split at at_leaf
          · obtain rfl := Except.ok.inj at_leaf
            exact ⟨real, realpath_ok_iff.mpr ⟨left, walked⟩, rfl⟩
          · simp at at_leaf
      | missing location left => simp [walked] at at_leaf
      | failed code => simp [walked] at at_leaf

/-- A name that is no link decides where its path leads. -/
theorem resolve_by_leaf {path location : Path} (at_leaf : leaf names path = .ok location)
    (plain : isLink names location = false) :
    ((nodeAt names location).isSome = true ∧ ∃ left, resolve names path = .found location left) ∨
      nodeAt names location = none ∧ ∃ left, resolve names path = .missing location left := by
  cases path using List.reverseRecOn with
  | nil =>
      obtain rfl : [] = location := Except.ok.inj at_leaf
      exact Or.inl ⟨rfl, maxLinks, rfl⟩
  | append_singleton dir name =>
      unfold leaf at at_leaf
      rw [List.getLast?_concat, List.dropLast_concat] at at_leaf
      rw [resolve_snoc]
      cases walked : resolve names dir with
      | missing place left => simp [walked] at at_leaf
      | failed code => simp [walked] at at_leaf
      | found real left =>
          simp only [walked] at at_leaf
          split at at_leaf
          · next opened =>
              obtain rfl := Except.ok.inj at_leaf
              have named : nodeAt names (real ++ [name]) = lookup names (real ++ [name]) := by simp [nodeAt]
              rw [named, Walk.andThen]
              cases present : lookup names (real ++ [name]) with
              | none =>
                  right
                  rw [walk_absent opened present]
                  exact ⟨rfl, left, rfl⟩
              | some node =>
                  left
                  have unlinked : ∀ target, node.kind ≠ .link target := by
                    intro target linked
                    obtain ⟨ino, kind⟩ := node
                    simp only at linked
                    simp [isLink, present, linked] at plain
                  rw [walk_enter opened present unlinked, walk_nil]
                  exact ⟨rfl, left, rfl⟩
          · simp at at_leaf

theorem vacant_not_link {location : Path} (free : nodeAt names location = none) :
    isLink names location = false := by
  by_cases root : location = []
  · simp [nodeAt, root] at free
  · simp only [nodeAt, List.isEmpty_iff, root, if_false] at free
    simp [isLink, free]

/-- A walk that misses only the last name has a leaf. -/
theorem missing_has_leaf {path place : Path} {left : Nat}
    (walked : resolve names path = .missing place left) : ∃ location, leaf names path = .ok location := by
  cases path using List.reverseRecOn with
  | nil => exact ⟨[], rfl⟩
  | append_singleton dir name =>
      rw [resolve_snoc] at walked
      unfold leaf
      rw [List.getLast?_concat, List.dropLast_concat]
      cases first : resolve names dir with
      | missing real count => simp [first, Walk.andThen] at walked
      | failed code => simp [first, Walk.andThen] at walked
      | found real count =>
          rw [first, Walk.andThen] at walked
          by_cases opened : isDir names real = true
          · exact ⟨real ++ [name], by simp [opened]⟩
          · rw [walk_blocked _ (by simpa using opened)] at walked
            simp at walked

/-- Below a missing name there is nothing. -/
theorem missing_below {path place : Path} {left : Nat} (walked : resolve names path = .missing place left)
    (more : Path) (real : Path) : realpath names (path ++ more) ≠ .ok real := by
  intro found
  obtain ⟨count, reached⟩ := realpath_ok_iff.mp found
  have steps : resolve names (path ++ more) = (resolve names path).andThen names (Path.segs more) := by
    unfold resolve
    rw [← walk_append]
    simp [Path.segs]
  rw [steps, walked, Walk.andThen] at reached
  split at reached <;> simp at reached

end Leaves

/-! Where a call acts, and what it does there. -/
section Sites

def located : Except Errno Path → List Path
  | .ok location => [location]
  | .error _ => []

/-- The own name of a path, where there is nothing yet. -/
def vacant (names : Names) (path : Path) : List Path :=
  (located (leaf names path)).filter fun location => (nodeAt names location).isNone

def openSites (names : Names) (path : Path) (flags : OpenFlags) : List Path :=
  if flags.creat && flags.excl then vacant names path
  else
    match resolve names path with
    | .found location _ => [location]
    | .missing location _ => if flags.creat && !flags.directory then [location] else []
    | .failed _ => []

/-- The directories a recursive mkdir would make. -/
def plannedDirs (host : Host) (path : Path) : List (Path × Node) :=
  (missingDirs host.names host.nextIno path).1

/-- The locations at or below which a call acts. -/
def sites (host : Host) (chance : Chance) : Call → List Path
  | .look path follow => located (HostCalls.place host.names path follow)
  | .list path _ => located (realpath host.names path)
  | .mkdir path true _ => (plannedDirs host path).map Prod.fst
  | .mkdir path false _ => vacant host.names path
  | .mkdtemp path => vacant host.names (suffixed path chance.suffix)
  | .rmdir path => located (leaf host.names path)
  | .rm path _ _ => located (leaf host.names path)
  | .unlink path => located (leaf host.names path)
  | .rename source dest => located (leaf host.names source) ++ located (leaf host.names dest)
  | .link source dest => located (leaf host.names source) ++ vacant host.names dest
  | .symlink _ path => vacant host.names path
  | .attrs path follow _ => located (HostCalls.place host.names path follow)
  | .truncate path _ => located (realpath host.names path)
  | .openFile path flags _ => openSites host.names path flags
  | .descriptor file _ => file.location.toList

/-- A new directory among those made from `location` on. -/
structure Planned (names : Names) (ino : Nat) (location : Path) (entry : Path × Node) : Prop where
  below : inside entry.1 location = true
  free : ∀ path, inside path location = true → inside entry.1 path = true → lookup names path = none
  nonroot : location ≠ []
  kind : entry.2.kind = .dir
  fresh : ino ≤ entry.2.ino

theorem planned_self {names : Names} {location : Path} (ino : Nat) (free : lookup names location = none)
    (nonroot : location ≠ []) : Planned names ino location (location, ⟨ino, .dir⟩) where
  below := inside_self location
  free := by
    intro path under beyond
    rwa [inside_antisymm under beyond]
  nonroot := nonroot
  kind := rfl
  fresh := Nat.le_refl _

/-- What is planned from the next name on is planned from here. -/
theorem planned_up {names : Names} {ino : Nat} {location : Path} {name : Name} {entry : Path × Node}
    (free : lookup names location = none) (nonroot : location ≠ [])
    (deeper : Planned names (ino + 1) (location ++ [name]) entry) : Planned names ino location entry where
  below := inside_trans deeper.below ((inside_iff _ _).mpr (List.prefix_append _ _))
  free := by
    intro path above beyond
    have under := (inside_iff _ _).mp deeper.below
    -- a path on the way is the old location or lies below the new one
    rcases List.prefix_or_prefix_of_prefix ((inside_iff _ _).mp beyond) under with short | long
    · rcases List.prefix_concat_iff.mp short with same | shorter
      · rw [same]
        exact deeper.free _ (inside_self _) deeper.below
      · rwa [inside_antisymm above ((inside_iff _ _).mpr shorter)]
    · exact deeper.free path ((inside_iff _ _).mpr long) beyond
  nonroot := nonroot
  kind := deeper.kind
  fresh := Nat.le_of_succ_le deeper.fresh

theorem mem_new_dirs {names : Names} {ino : Nat} {location : Path} {rest : List Name}
    {entry : Path × Node} (free : lookup names location = none) (nonroot : location ≠ [])
    (member : entry ∈ (newDirs names ino location rest).1) : Planned names ino location entry := by
  induction rest generalizing ino location with
  | nil =>
      rw [newDirs, List.mem_singleton] at member
      rw [member]
      exact planned_self ino free nonroot
  | cons name rest ih =>
      unfold newDirs at member
      split at member
      · rw [List.mem_singleton] at member
        rw [member]
        exact planned_self ino free nonroot
      next vacant =>
        rcases List.mem_cons.mp member with rfl | later
        · exact planned_self ino free nonroot
        · have clear : lookup names (location ++ [name]) = none := by simpa using vacant
          exact planned_up free nonroot (ih clear (by simp) later)

/-- The first missing directory is the own name of a prefix that leads to nothing. -/
theorem first_missing_some {names : Names} {dir location : Path} {path rest : List Name}
    (first : firstMissing names dir path = .ok (some (location, rest))) :
    ∃ before name, path = before ++ name :: rest ∧ leaf names (dir ++ before ++ [name]) = .ok location ∧
      (∃ place left, resolve names (dir ++ before ++ [name]) = .missing place left) ∧
      lookup names location = none ∧ location ≠ [] := by
  induction path generalizing dir with
  | nil => simp [firstMissing] at first
  | cons name path ih =>
      unfold firstMissing at first
      cases walked : resolve names (dir ++ [name]) with
      | failed code => simp [walked] at first
      | found place left =>
          simp only [walked] at first
          split at first
          · obtain ⟨before, last, rfl, found⟩ := ih first
            exact ⟨name :: before, last, rfl, by simpa using found⟩
          · simp at first
      | missing place left =>
          simp only [walked] at first
          cases at_leaf : leaf names (dir ++ [name]) with
          | error code => simp [at_leaf] at first
          | ok here =>
              simp only [at_leaf] at first
              split at first
              · simp at first
              next vacant =>
                simp only [Except.ok.injEq, Option.some.injEq, Prod.mk.injEq] at first
                obtain ⟨rfl, rfl⟩ := first
                refine ⟨[], name, rfl, by simpa using at_leaf, ⟨place, left, by simpa using walked⟩,
                  by simpa using vacant, ?_⟩
                obtain ⟨real, _, same⟩ := leaf_in_parent at_leaf
                simp [same]

theorem mem_planned_dirs {host : Host} {path : Path} {entry : Path × Node}
    (member : entry ∈ plannedDirs host path) :
    ∃ location rest, firstMissing host.names [] path = .ok (some (location, rest)) ∧
      Planned host.names host.nextIno location entry := by
  unfold plannedDirs missingDirs at member
  cases first : firstMissing host.names [] path with
  | error code => simp [first] at member
  | ok found =>
      cases found with
      | none => simp [first] at member
      | some start =>
          obtain ⟨location, rest⟩ := start
          simp only [first] at member
          obtain ⟨before, name, _, _, _, free, nonroot⟩ := first_missing_some first
          exact ⟨location, rest, rfl, mem_new_dirs free nonroot member⟩

def removes : Call → Bool
  | .rmdir _ | .rm _ _ _ | .unlink _ => true
  | _ => false

/-- The locations at or below which a call changes something. -/
def changeSites (host : Host) (chance : Chance) : Call → List Path
  | .look _ _ => []
  | .list _ _ => []
  | .link _ dest => vacant host.names dest
  | .openFile path flags _ => if flags.creat then openSites host.names path flags else []
  | call => sites host chance call

/-- The changes a call can make to the names. -/
inductive Alters (host : Host) (chance : Chance) : Call → List Change → Prop where
  | nothing (call : Call) : Alters host chance call []
  | makes (call : Call) (location : Path) (kind : Kind)
      (site : location ∈ changeSites host chance call) (free : nodeAt host.names location = none)
      (linking : ∀ target, kind = .link target → ∃ path, call = .symlink target path) :
      Alters host chance call [.add location ⟨host.nextIno, kind⟩]
  | makesDirs (path : Path) (mode count : Nat) :
      Alters host chance (.mkdir path true mode)
        (((plannedDirs host path).take count).map fun entry => .add entry.1 entry.2)
  | links (source dest src dst : Path) (node : Node)
      (sourceAt : leaf host.names source = .ok src) (destAt : leaf host.names dest = .ok dst)
      (present : nodeAt host.names src = some node) (plain : node.kind ≠ .dir)
      (free : nodeAt host.names dst = none) :
      Alters host chance (.link source dest) [.add dst node]
  | drops (call : Call) (location : Path) (spared : List Path) (removes : HostEffects.removes call = true)
      (site : location ∈ changeSites host chance call) :
      Alters host chance call [.drop location spared]
  | moves (source dest src dst : Path)
      (sourceAt : leaf host.names source = .ok src) (destAt : leaf host.names dest = .ok dst)
      (present : (nodeAt host.names src).isSome = true) (named : src ≠ [] ∧ dst ≠ []) :
      Alters host chance (.rename source dest) [.move src dst]

theorem mem_vacant {names : Names} {path location : Path} :
    location ∈ vacant names path ↔ leaf names path = .ok location ∧ nodeAt names location = none := by
  unfold vacant
  cases at_leaf : leaf names path with
  | error code => simp [located]
  | ok place =>
      simp only [located, List.mem_filter, List.mem_singleton, Option.isNone_iff_eq_none, Except.ok.injEq]
      exact and_congr_left fun _ => eq_comm

theorem place_at_leaf {names : Names} {path location : Path}
    (placed : HostCalls.place names path false = .ok location) :
    leaf names path = .ok location ∧ (nodeAt names location).isSome = true := by
  unfold HostCalls.place at placed
  simp only [Bool.false_eq_true, if_false] at placed
  cases at_leaf : leaf names path with
  | error code => simp [at_leaf] at placed
  | ok found =>
      simp only [at_leaf] at placed
      split at placed
      · next present =>
          obtain rfl := Except.ok.inj placed
          exact ⟨rfl, present⟩
      · simp at placed

variable {host : Host} {chance : Chance}

theorem make_dir_alters {call : Call} {path : Path} {mode : Nat}
    (site : ∀ location ∈ vacant host.names path, location ∈ changeSites host chance call) :
    Alters host chance call (makeDir host path mode).1.changes := by
  unfold makeDir
  cases at_leaf : leaf host.names path with
  | error code => exact .nothing _
  | ok location =>
      by_cases taken : (nodeAt host.names location).isSome = true
      · simp only [taken, if_true]
        exact .nothing _
      · simp only [taken]
        have free : nodeAt host.names location = none := by simpa using taken
        exact .makes _ location .dir (site location (mem_vacant.mpr ⟨at_leaf, free⟩)) free (by simp)

theorem make_dirs_effect (host : Host) (path : Path) (mode : Nat) (fault : Option Fault) :
    ∃ count, (makeDirs host path mode fault).1 = madeDirs ((plannedDirs host path).take count) mode := by
  cases fault with
  | some stop => exact ⟨stop.steps, rfl⟩
  | none => exact ⟨(plannedDirs host path).length, by rw [List.take_length]; rfl⟩

theorem make_dirs_alters (path : Path) (mode : Nat) (fault : Option Fault) :
    Alters host chance (.mkdir path true mode) (makeDirs host path mode fault).1.changes := by
  obtain ⟨count, effect⟩ := make_dirs_effect host path mode fault
  rw [effect]
  exact .makesDirs path mode count

theorem remove_dir_alters (path : Path) :
    Alters host chance (.rmdir path) (removeDir host path).1.changes := by
  unfold removeDir
  cases placed : HostCalls.place host.names path false with
  | error code => exact .nothing _
  | ok location =>
      have site : location ∈ changeSites host chance (.rmdir path) := by
        simp [changeSites, sites, (place_at_leaf placed).1, located]
      simp only
      split
      · exact .nothing _
      split
      · exact .nothing _
      split
      · exact .nothing _
      · exact .drops _ location [] rfl site

theorem remove_alters (path : Path) (recursive force : Bool) (fault : Option Fault) :
    Alters host chance (.rm path recursive force) (remove host path recursive force fault).1.changes := by
  unfold remove
  cases placed : HostCalls.place host.names path false with
  | error code =>
      simp only
      split
      · exact .nothing _
      · exact .nothing _
  | ok location =>
      have site : location ∈ changeSites host chance (.rm path recursive force) := by
        simp [changeSites, sites, (place_at_leaf placed).1, located]
      simp only
      split
      · exact .nothing _
      split
      · exact .nothing _
      cases fault with
      | none => exact .drops _ location [] rfl site
      | some stop => exact .drops _ location stop.spared rfl site

theorem unlink_alters (path : Path) : Alters host chance (.unlink path) (unlink host path).1.changes := by
  unfold unlink
  cases placed : HostCalls.place host.names path false with
  | error code => exact .nothing _
  | ok location =>
      have site : location ∈ changeSites host chance (.unlink path) := by
        simp [changeSites, sites, (place_at_leaf placed).1, located]
      simp only
      split
      · exact .nothing _
      · exact .drops _ location [] rfl site

theorem rename_alters (source dest : Path) :
    Alters host chance (.rename source dest) (rename host source dest).1.changes := by
  unfold rename
  cases placed : HostCalls.place host.names source false with
  | error code => exact .nothing _
  | ok src =>
      cases at_leaf : leaf host.names dest with
      | error code => exact .nothing _
      | ok dst =>
          simp only
          split
          · exact .nothing _
          next named =>
            split
            · exact .nothing _
            split
            · exact .nothing _
            · exact .moves source dest src dst (place_at_leaf placed).1 at_leaf (place_at_leaf placed).2
                (by simpa using named)

theorem link_alters (source dest : Path) :
    Alters host chance (.link source dest) (link host source dest).1.changes := by
  unfold link
  cases placed : HostCalls.place host.names source false with
  | error code => exact .nothing _
  | ok src =>
      cases at_leaf : leaf host.names dest with
      | error code => exact .nothing _
      | ok dst =>
          cases present : nodeAt host.names src with
          | none => simp only [present]; exact .nothing _
          | some node =>
              simp only [present]
              split
              · exact .nothing _
              · next plain =>
                  split
                  · exact .nothing _
                  · next free =>
                      exact .links source dest src dst node (place_at_leaf placed).1 at_leaf present
                        plain (by simpa using free)

theorem symlink_alters (target : PathText) (path : Path) :
    Alters host chance (.symlink target path) (symlink host target path).1.changes := by
  unfold symlink
  cases at_leaf : leaf host.names path with
  | error code => exact .nothing _
  | ok location =>
      simp only
      split
      · exact .nothing _
      split
      · exact .nothing _
      · next taken =>
          have free : nodeAt host.names location = none := by simpa using taken
          refine .makes _ location (.link target) (mem_vacant.mpr ⟨at_leaf, free⟩) free ?_
          intro other same
          exact ⟨path, by rw [Kind.link.inj same]⟩

theorem open_existing_alters (call : Call) (location : Path) (flags : OpenFlags) :
    Alters host chance call (openExisting host location flags).1.changes := by
  unfold openExisting
  cases nodeAt host.names location with
  | none => exact .nothing _
  | some node =>
      simp only
      split
      · exact .nothing _
      split
      · exact .nothing _
      · exact .nothing _

theorem open_file_alters (path : Path) (flags : OpenFlags) (mode : Nat) :
    Alters host chance (.openFile path flags mode) (openFile host path flags mode).1.changes := by
  unfold openFile
  split
  · next exclusive =>
      cases at_leaf : leaf host.names path with
      | error code => exact .nothing _
      | ok location =>
          simp only
          split
          · exact .nothing _
          · next taken =>
              have free : nodeAt host.names location = none := by simpa using taken
              refine .makes _ location .file ?_ free (by simp)
              rw [changeSites, if_pos (Bool.and_eq_true_iff.mp exclusive).1, openSites, if_pos exclusive]
              exact mem_vacant.mpr ⟨at_leaf, free⟩
  · next shared =>
      split
      · exact .nothing _
      cases walked : resolve host.names path with
      | found location left => exact open_existing_alters _ location flags
      | failed code => exact .nothing _
      | missing location left =>
          simp only
          split
          · next creating =>
              have vacant := (walk_located host.names maxLinks [] (Path.segs path)
                (Or.inl (real_root _))).2 location left walked
              obtain ⟨dir, name, rfl, _, free⟩ := vacant
              refine .makes _ (dir ++ [name]) .file ?_ (by simp [nodeAt, free]) (by simp)
              rw [changeSites, if_pos (Bool.and_eq_true_iff.mp creating).1, openSites, if_neg shared, walked]
              simp only [creating, if_true, List.mem_singleton]
          · exact .nothing _

theorem descriptor_changes (file : OpenFile) (short : Option Nat) (act : FdAct) :
    (descriptor host file short act).1.changes = [] := by
  cases act with
  | read position length =>
      simp only [descriptor]
      repeat' split
      all_goals rfl
  | write position bytes =>
      simp only [descriptor]
      split
      · rfl
      · split <;> rfl
  | truncate length =>
      cases length with
      | none => rfl
      | some size => simp only [descriptor]; split <;> rfl
  | attrs edit => rfl
  | stat => rfl
  | sync => rfl

theorem look_changes (path : Path) (follow : Bool) : (look host path follow).1.changes = [] := by
  unfold look
  split
  · rfl
  · split <;> rfl

theorem list_changes (path : Path) (recursive : Bool) : (list host path recursive).1.changes = [] := by
  unfold list
  split
  · rfl
  · split <;> rfl

theorem set_attrs_changes (path : Path) (follow : Bool) (edit : AttrEdit) :
    (setAttrs host path follow edit).1.changes = [] := by
  unfold setAttrs
  split
  · rfl
  · split <;> rfl

theorem truncate_changes (path : Path) (length : Option Int) :
    (truncate host path length).1.changes = [] := by
  unfold truncate
  split
  · rfl
  · rfl
  · split <;> rfl

/-- Every call changes the names in one of these ways. -/
theorem exec_alters (host : Host) (chance : Chance) (call : Call) :
    Alters host chance call (exec host call chance).1.changes := by
  have still : ∀ {changes : List Change}, changes = [] → Alters host chance call changes :=
    fun same => same ▸ .nothing call
  cases call with
  | mkdir path recursive mode =>
      cases recursive with
      | true => exact make_dirs_alters path mode chance.fault
      | false =>
          cases failing : chance.fault with
          | some fault => simp only [exec, failing]; exact .nothing _
          | none =>
              simp only [exec, failing]
              exact make_dir_alters fun _ member => member
  | rm path recursive force => exact remove_alters path recursive force chance.fault
  | _ =>
      cases failing : chance.fault with
      | some fault => simp only [exec, failing]; exact .nothing _
      | none =>
          simp only [exec, failing]
          first
            | exact still (look_changes _ _)
            | exact still (list_changes _ _)
            | exact still (set_attrs_changes _ _ _)
            | exact still (truncate_changes _ _)
            | exact still (descriptor_changes _ _ _)
            | exact remove_dir_alters _
            | exact unlink_alters _
            | exact rename_alters _ _
            | exact link_alters _ _
            | exact symlink_alters _ _
            | exact open_file_alters _ _ _
            | exact make_dir_alters fun _ member => member

/-- What an open answers with: the file there was at one of its sites, or a new one. -/
structure OpenedAt (host : Host) (path : Path) (flags : OpenFlags) (file : OpenFile) (location : Path) :
    Prop where
  site : location ∈ openSites host.names path flags
  located : file.location = some location
  writable : file.writable = (flags.wronly != flags.rdwr)
  object : nodeAt host.names location = some ⟨file.ino, file.kind⟩ ∨
    flags.creat = true ∧ file.ino = host.nextIno

theorem opened_existing {path location : Path} {flags : OpenFlags} {file : OpenFile}
    (site : location ∈ openSites host.names path flags)
    (opened : (openExisting host location flags).2 = .ok (.opened file)) :
    OpenedAt host path flags file location := by
  unfold openExisting at opened
  cases present : nodeAt host.names location with
  | none => simp [present, refuse] at opened
  | some node =>
      simp only [present] at opened
      split at opened
      · simp [refuse] at opened
      split at opened
      · simp [refuse] at opened
      · simp only [Except.ok.injEq, Reply.opened.injEq] at opened
        subst opened
        exact ⟨site, rfl, rfl, Or.inl present⟩

theorem opened_at {path : Path} {flags : OpenFlags} {mode : Nat} {file : OpenFile}
    (opened : (exec host (.openFile path flags mode) chance).2 = .ok (.opened file)) :
    ∃ location, OpenedAt host path flags file location := by
  cases failing : chance.fault with
  | some fault => simp [exec, failing, refuse] at opened
  | none =>
      simp only [exec, failing] at opened
      unfold openFile at opened
      split at opened
      · next exclusive =>
          cases at_leaf : leaf host.names path with
          | error code => simp [at_leaf, refuse] at opened
          | ok location =>
              simp only [at_leaf] at opened
              split at opened
              · simp [refuse] at opened
              next taken =>
                simp only [createOpened, Except.ok.injEq, Reply.opened.injEq] at opened
                subst opened
                refine ⟨location, ?_, rfl, rfl, Or.inr ⟨(Bool.and_eq_true_iff.mp exclusive).1, rfl⟩⟩
                rw [openSites, if_pos exclusive]
                exact mem_vacant.mpr ⟨at_leaf, by simpa using taken⟩
      · next shared =>
          split at opened
          · simp [refuse] at opened
          cases walked : resolve host.names path with
          | failed code => simp [walked, refuse] at opened
          | found location left =>
              simp only [walked] at opened
              exact ⟨location, opened_existing (by simp [openSites, shared, walked]) opened⟩
          | missing location left =>
              simp only [walked] at opened
              split at opened
              · next creating =>
                  simp only [createOpened, Except.ok.injEq, Reply.opened.injEq] at opened
                  subst opened
                  refine ⟨location, ?_, rfl, rfl, Or.inr ⟨(Bool.and_eq_true_iff.mp creating).1, rfl⟩⟩
                  rw [openSites, if_neg shared, walked]
                  simp only [creating, if_true, List.mem_singleton]
              · simp [refuse] at opened

end Sites

/-! The inodes a call writes. -/
section Edits

variable {host : Host} {chance : Chance}

/-- A written inode is new, or that of an object the call changes. -/
def Writes (host : Host) (chance : Chance) (call : Call) (ino : Nat) : Prop :=
  host.nextIno ≤ ino ∨
    ∃ location ∈ changeSites host chance call, ∃ kind, nodeAt host.names location = some ⟨ino, kind⟩

theorem make_dir_writes {call : Call} {path : Path} {mode : Nat} {edit : Nat × Inode}
    (member : edit ∈ (makeDir host path mode).1.edits) : Writes host chance call edit.1 := by
  unfold makeDir at member
  cases at_leaf : leaf host.names path with
  | error code => simp [at_leaf, refuse, Effect.none] at member
  | ok location =>
      simp only [at_leaf] at member
      split at member
      · simp [refuse, Effect.none] at member
      · rw [create, List.mem_singleton] at member
        exact Or.inl (member ▸ Nat.le_refl _)

theorem make_dirs_writes {path : Path} {mode : Nat} {fault : Option Fault} {edit : Nat × Inode}
    (member : edit ∈ (makeDirs host path mode fault).1.edits) :
    Writes host chance (.mkdir path true mode) edit.1 := by
  obtain ⟨count, effect⟩ := make_dirs_effect host path mode fault
  rw [effect] at member
  obtain ⟨entry, among, rfl⟩ := List.mem_map.mp member
  obtain ⟨_, _, _, planned⟩ := mem_planned_dirs (List.mem_of_mem_take among)
  exact Or.inl planned.fresh

theorem symlink_writes {target : PathText} {path : Path} {edit : Nat × Inode}
    (member : edit ∈ (symlink host target path).1.edits) :
    Writes host chance (.symlink target path) edit.1 := by
  unfold symlink at member
  cases at_leaf : leaf host.names path with
  | error code => simp [at_leaf, refuse, Effect.none] at member
  | ok location =>
      simp only [at_leaf] at member
      split at member
      · simp [refuse, Effect.none] at member
      split at member
      · simp [refuse, Effect.none] at member
      · rw [create, List.mem_singleton] at member
        exact Or.inl (member ▸ Nat.le_refl _)

theorem set_attrs_writes {path : Path} {follow : Bool} {attr : AttrEdit} {edit : Nat × Inode}
    (member : edit ∈ (setAttrs host path follow attr).1.edits) :
    Writes host chance (.attrs path follow attr) edit.1 := by
  unfold setAttrs at member
  cases placed : HostCalls.place host.names path follow with
  | error code => simp [placed, refuse, Effect.none] at member
  | ok location =>
      simp only [placed] at member
      cases present : nodeAt host.names location with
      | none => simp [present, refuse, Effect.none] at member
      | some node =>
          simp only [present, List.mem_singleton] at member
          rw [member]
          exact Or.inr ⟨location, by simp [changeSites, sites, placed, located], node.kind, present⟩

theorem truncate_writes {path : Path} {length : Option Int} {edit : Nat × Inode}
    (member : edit ∈ (truncate host path length).1.edits) :
    Writes host chance (.truncate path length) edit.1 := by
  unfold truncate at member
  cases found : realpath host.names path with
  | error code => simp [found, refuse, Effect.none] at member
  | ok location =>
      cases length with
      | none => simp [found, refuse, Effect.none] at member
      | some size =>
          simp only [found] at member
          split at member
          · next ino present =>
              rw [List.mem_singleton] at member
              rw [member]
              exact Or.inr ⟨location, by simp [changeSites, sites, found, located], .file, present⟩
          · simp [refuse, Effect.none] at member
          · simp [refuse, Effect.none] at member

theorem open_file_writes {path : Path} {flags : OpenFlags} {mode : Nat} {edit : Nat × Inode}
    (member : edit ∈ (openFile host path flags mode).1.edits) :
    Writes host chance (.openFile path flags mode) edit.1 := by
  have fresh : ∀ {location : Path}, edit ∈ (createOpened host location flags mode).1.edits →
      Writes host chance (.openFile path flags mode) edit.1 := by
    intro location made
    simp only [createOpened, create, List.mem_singleton] at made
    exact Or.inl (made ▸ Nat.le_refl _)
  have existing : ∀ {location : Path}, edit ∉ (openExisting host location flags).1.edits := by
    intro location
    unfold openExisting
    split
    · simp [refuse, Effect.none]
    split
    · simp [refuse, Effect.none]
    split <;> simp [refuse, Effect.none]
  unfold openFile at member
  split at member
  · cases at_leaf : leaf host.names path with
    | error code => simp [at_leaf, refuse, Effect.none] at member
    | ok location =>
        simp only [at_leaf] at member
        split at member
        · simp [refuse, Effect.none] at member
        · exact fresh member
  · split at member
    · simp [refuse, Effect.none] at member
    cases walked : resolve host.names path with
    | failed code => simp [walked, refuse, Effect.none] at member
    | found location left =>
        simp only [walked] at member
        exact absurd member existing
    | missing location left =>
        simp only [walked] at member
        split at member
        · exact fresh member
        · simp [refuse, Effect.none] at member

/-- A call on paths writes new inodes and those of the objects it changes. -/
theorem exec_writes {call : Call} {edit : Nat × Inode} (byPath : ∀ file act, call ≠ .descriptor file act)
    (member : edit ∈ (exec host call chance).1.edits) : Writes host chance call edit.1 := by
  have still : ∀ {outcome : Outcome}, outcome.1.edits = [] → edit ∉ outcome.1.edits := by
    intro outcome empty
    simp [empty]
  cases call with
  | descriptor file act => exact absurd rfl (byPath file act)
  | mkdir path recursive mode =>
      cases recursive with
      | true => exact make_dirs_writes member
      | false =>
          cases failing : chance.fault with
          | some fault => simp [exec, failing, refuse, Effect.none] at member
          | none =>
              simp only [exec, failing] at member
              exact make_dir_writes member
  | rm path recursive force =>
      refine absurd member (still ?_)
      simp only [exec, remove]
      repeat' split
      all_goals rfl
  | _ =>
      cases failing : chance.fault with
      | some fault => simp [exec, failing, refuse, Effect.none] at member
      | none =>
          simp only [exec, failing] at member
          first
            | exact make_dir_writes member
            | exact symlink_writes member
            | exact set_attrs_writes member
            | exact truncate_writes member
            | exact open_file_writes member
            | (refine absurd member (still ?_)
               simp only [look, list, removeDir, unlink, rename, link]
               repeat' split
               all_goals rfl)

/-- A call on a file writes its inode, by a writable file or to its attributes. -/
theorem descriptor_writes {file : OpenFile} {act : FdAct} {edit : Nat × Inode}
    (member : edit ∈ (exec host (.descriptor file act) chance).1.edits) :
    edit.1 = file.ino ∧ (file.writable = true ∨ ∃ attr, act = .attrs attr) := by
  cases failing : chance.fault with
  | some fault => simp [exec, failing, refuse, Effect.none] at member
  | none =>
      simp only [exec, failing] at member
      cases act with
      | read position length =>
          simp only [descriptor] at member
          repeat' split at member
          all_goals simp [refuse, Effect.none] at member
      | write position bytes =>
          simp only [descriptor] at member
          split at member
          · simp [Effect.none] at member
          split at member
          · simp [refuse, Effect.none] at member
          · next writable =>
              simp only at member
              split at member
              · simp at member
              · rw [List.mem_singleton] at member
                rw [member]
                exact ⟨rfl, Or.inl (by simpa using writable)⟩
      | truncate length =>
          cases length with
          | none => simp [descriptor, refuse, Effect.none] at member
          | some size =>
              simp only [descriptor] at member
              split at member
              · simp [refuse, Effect.none] at member
              · next writable =>
                  rw [List.mem_singleton] at member
                  rw [member]
                  exact ⟨rfl, Or.inl (by simpa using writable)⟩
      | attrs attr =>
          simp only [descriptor, List.mem_singleton] at member
          rw [member]
          exact ⟨rfl, Or.inr ⟨attr, rfl⟩⟩
      | stat => simp [descriptor, Effect.none] at member
      | sync => simp [descriptor, Effect.none] at member

end Edits

/-! A call touches nothing but what lies at or below its sites. -/
section Touched

variable {host : Host} {chance : Chance}

def Within (call : Call) (host : Host) (chance : Chance) (touched : List Path) : Prop :=
  ∀ path ∈ touched, ∃ site ∈ sites host chance call, inside path site = true

theorem within_nil (call : Call) : Within call host chance [] := by
  intro path member
  simp at member

theorem within_sites {call : Call} {touched : List Path}
    (among : ∀ path ∈ touched, path ∈ sites host chance call) : Within call host chance touched :=
  fun path member => ⟨path, among path member, inside_self path⟩

theorem inside_of_below {names : Names} {location path : Path}
    (member : path ∈ (below names location).map Prod.fst) : inside path location = true := by
  obtain ⟨entry, found, rfl⟩ := List.mem_map.mp member
  have kept := (List.mem_filter.mp found).2
  simp only [Bool.and_eq_true] at kept
  exact kept.1

theorem children_inside {names : Names} {location path : Path}
    (member : path ∈ (children names location).map Prod.fst) : inside path location = true := by
  obtain ⟨entry, found, rfl⟩ := List.mem_map.mp member
  have kept := (List.mem_filter.mp found).2
  simp only [Bool.and_eq_true, beq_iff_eq] at kept
  exact (inside_iff _ _).mpr (kept.2 ▸ List.dropLast_prefix entry.1)

theorem look_within (path : Path) (follow : Bool) :
    Within (.look path follow) host chance (look host path follow).1.touched := by
  unfold look
  cases placed : HostCalls.place host.names path follow with
  | error code => exact within_nil _
  | ok location =>
      simp only
      split
      · exact within_nil _
      · exact within_sites (by simp [sites, placed, located])

theorem list_within (path : Path) (recursive : Bool) :
    Within (.list path recursive) host chance (list host path recursive).1.touched := by
  unfold list
  cases found : realpath host.names path with
  | error code => exact within_nil _
  | ok location =>
      simp only
      split
      · intro path member
        refine ⟨location, by simp [sites, found, located], ?_⟩
        rcases List.mem_cons.mp member with rfl | entry
        · exact inside_self path
        · cases recursive with
          | true => exact inside_of_below entry
          | false => exact children_inside entry
      · exact within_nil _

theorem make_dir_within {call : Call} {path : Path} {mode : Nat}
    (site : ∀ location ∈ vacant host.names path, location ∈ sites host chance call) :
    Within call host chance (makeDir host path mode).1.touched := by
  unfold makeDir
  cases at_leaf : leaf host.names path with
  | error code => exact within_nil _
  | ok location =>
      simp only
      split
      · exact within_nil _
      · next free =>
          exact within_sites fun path member => by
            rw [List.mem_singleton.mp member]
            exact site location (mem_vacant.mpr ⟨at_leaf, by simpa using free⟩)

theorem make_dirs_within (path : Path) (mode : Nat) (fault : Option Fault) :
    Within (.mkdir path true mode) host chance (makeDirs host path mode fault).1.touched := by
  obtain ⟨count, effect⟩ := make_dirs_effect host path mode fault
  rw [effect]
  exact within_sites fun path member =>
    List.map_subset _ (List.take_subset count _) member

theorem remove_dir_within (path : Path) :
    Within (.rmdir path) host chance (removeDir host path).1.touched := by
  unfold removeDir
  cases placed : HostCalls.place host.names path false with
  | error code => exact within_nil _
  | ok location =>
      simp only
      split
      · exact within_nil _
      split
      · exact within_nil _
      split
      · exact within_nil _
      · exact within_sites (by simp [sites, (place_at_leaf placed).1, located])

theorem remove_within (path : Path) (recursive force : Bool) (fault : Option Fault) :
    Within (.rm path recursive force) host chance (remove host path recursive force fault).1.touched := by
  unfold remove
  cases placed : HostCalls.place host.names path false with
  | error code =>
      simp only
      split
      · exact within_nil _
      · exact within_nil _
  | ok location =>
      simp only
      split
      · exact within_nil _
      split
      · exact within_nil _
      have below_site : Within (.rm path recursive force) host chance
          (location :: (below host.names location).map Prod.fst) := by
        intro other member
        refine ⟨location, by simp [sites, (place_at_leaf placed).1, located], ?_⟩
        rcases List.mem_cons.mp member with rfl | entry
        · exact inside_self other
        · exact inside_of_below entry
      cases fault with
      | none => exact below_site
      | some stop => exact below_site

theorem unlink_within (path : Path) : Within (.unlink path) host chance (unlink host path).1.touched := by
  unfold unlink
  cases placed : HostCalls.place host.names path false with
  | error code => exact within_nil _
  | ok location =>
      simp only
      split
      · exact within_nil _
      · exact within_sites (by simp [sites, (place_at_leaf placed).1, located])

theorem rename_within (source dest : Path) :
    Within (.rename source dest) host chance (rename host source dest).1.touched := by
  unfold rename
  cases placed : HostCalls.place host.names source false with
  | error code => exact within_nil _
  | ok src =>
      cases at_leaf : leaf host.names dest with
      | error code => exact within_nil _
      | ok dst =>
          have sited : sites host chance (.rename source dest) = [src, dst] := by
            simp [sites, (place_at_leaf placed).1, at_leaf, located]
          simp only
          split
          · exact within_nil _
          split
          · exact within_sites (by simp [sited])
          split
          · exact within_nil _
          · intro other member
            simp only [List.mem_cons] at member
            rcases member with rfl | rfl | entry
            · exact ⟨other, by simp [sited], inside_self other⟩
            · exact ⟨other, by simp [sited], inside_self other⟩
            · exact ⟨src, by simp [sited], inside_of_below entry⟩

theorem link_within (source dest : Path) :
    Within (.link source dest) host chance (link host source dest).1.touched := by
  unfold link
  cases placed : HostCalls.place host.names source false with
  | error code => exact within_nil _
  | ok src =>
      cases at_leaf : leaf host.names dest with
      | error code => exact within_nil _
      | ok dst =>
          simp only
          split
          · exact within_nil _
          split
          · exact within_nil _
          split
          · exact within_nil _
          · next taken =>
              have free : dst ∈ vacant host.names dest := mem_vacant.mpr ⟨at_leaf, by simpa using taken⟩
              apply within_sites
              intro other member
              simp only [List.mem_cons, List.not_mem_nil, or_false] at member
              rcases member with rfl | rfl
              · simp [sites, (place_at_leaf placed).1, located]
              · exact List.mem_append_right _ free

theorem symlink_within (target : PathText) (path : Path) :
    Within (.symlink target path) host chance (symlink host target path).1.touched := by
  unfold symlink
  cases at_leaf : leaf host.names path with
  | error code => exact within_nil _
  | ok location =>
      simp only
      split
      · exact within_nil _
      split
      · exact within_nil _
      · next taken =>
          exact within_sites fun other member => by
            rw [List.mem_singleton.mp member]
            exact mem_vacant.mpr ⟨at_leaf, by simpa using taken⟩

theorem set_attrs_within (path : Path) (follow : Bool) (edit : AttrEdit) :
    Within (.attrs path follow edit) host chance (setAttrs host path follow edit).1.touched := by
  unfold setAttrs
  cases placed : HostCalls.place host.names path follow with
  | error code => exact within_nil _
  | ok location =>
      simp only
      split
      · exact within_nil _
      · exact within_sites (by simp [sites, placed, located])

theorem truncate_within (path : Path) (length : Option Int) :
    Within (.truncate path length) host chance (truncate host path length).1.touched := by
  unfold truncate
  cases found : realpath host.names path with
  | error code => exact within_nil _
  | ok location =>
      cases length with
      | none => exact within_nil _
      | some size =>
          simp only
          split
          · exact within_sites (by simp [sites, found, located])
          · exact within_nil _
          · exact within_nil _

theorem open_existing_within {call : Call} {location : Path} (flags : OpenFlags)
    (site : location ∈ sites host chance call) :
    Within call host chance (openExisting host location flags).1.touched := by
  unfold openExisting
  split
  · exact within_nil _
  split
  · exact within_nil _
  split
  · exact within_nil _
  · exact within_sites fun path member => by rwa [List.mem_singleton.mp member]

theorem open_file_within (path : Path) (flags : OpenFlags) (mode : Nat) :
    Within (.openFile path flags mode) host chance (openFile host path flags mode).1.touched := by
  unfold openFile
  split
  · next exclusive =>
      cases at_leaf : leaf host.names path with
      | error code => exact within_nil _
      | ok location =>
          simp only
          split
          · exact within_nil _
          · next taken =>
              exact within_sites fun other member => by
                rw [List.mem_singleton.mp member]
                simpa [sites, openSites, exclusive] using
                  mem_vacant.mpr ⟨at_leaf, by simpa using taken⟩
  · next shared =>
      split
      · exact within_nil _
      cases walked : resolve host.names path with
      | failed code => exact within_nil _
      | found location left =>
          exact open_existing_within flags (by simp [sites, openSites, shared, walked])
      | missing location left =>
          simp only
          split
          · next creating =>
              exact within_sites
                (by simp [createOpened, create, sites, openSites, shared, walked, creating])
          · exact within_nil _

theorem descriptor_within (file : OpenFile) (act : FdAct) :
    Within (.descriptor file act) host chance (descriptor host file chance.short act).1.touched := by
  have own : Within (.descriptor file act) host chance file.location.toList :=
    within_sites fun path member => member
  cases act with
  | read position length =>
      simp only [descriptor]
      split
      · exact within_nil _
      split
      · exact within_nil _
      split
      · exact within_nil _
      · exact own
  | write position bytes =>
      simp only [descriptor]
      split
      · exact within_nil _
      split
      · exact within_nil _
      · exact own
  | truncate length =>
      cases length with
      | none => exact within_nil _
      | some size =>
          simp only [descriptor]
          split
          · exact within_nil _
          · exact own
  | attrs edit => exact own
  | stat => exact own
  | sync => exact own

theorem exec_within (host : Host) (chance : Chance) (call : Call) :
    Within call host chance (exec host call chance).1.touched := by
  cases call with
  | mkdir path recursive mode =>
      cases recursive with
      | true => exact make_dirs_within path mode chance.fault
      | false =>
          cases failing : chance.fault with
          | some fault => simp only [exec, failing]; exact within_nil _
          | none =>
              simp only [exec, failing]
              exact make_dir_within fun _ member => member
  | rm path recursive force => exact remove_within path recursive force chance.fault
  | _ =>
      cases failing : chance.fault with
      | some fault => simp only [exec, failing]; exact within_nil _
      | none =>
          simp only [exec, failing]
          first
            | exact look_within _ _
            | exact list_within _ _
            | exact set_attrs_within _ _ _
            | exact truncate_within _ _
            | exact descriptor_within _ _
            | exact remove_dir_within _
            | exact unlink_within _
            | exact rename_within _ _
            | exact link_within _ _
            | exact symlink_within _ _
            | exact open_file_within _ _ _
            | exact make_dir_within fun _ member => member

end Touched

/-! A walk that finds its object still finds it when names are added, or when names
change that it did not pass. -/
section Kept

/-- Every name there was is as it was. -/
def Extends (before after : Names) : Prop :=
  lookup after [] = lookup before [] ∧
    ∀ path, lookup before path ≠ none → lookup after path = lookup before path

theorem extends_add {names : Names} {location : Path} (node : Node)
    (free : nodeAt names location = none) : Extends names (Change.apply names (.add location node)) := by
  have nonroot : location ≠ [] := by
    rintro rfl
    simp [nodeAt] at free
  have vacant : lookup names location = none := by simpa [nodeAt, nonroot] using free
  refine ⟨by rw [lookup_add]; simp [nonroot], fun path present => ?_⟩
  rw [lookup_add]
  have other : location ≠ path := fun same => present (same ▸ vacant)
  simp [other]

theorem lookup_adds {entries : List (Path × Node)} {names : Names} {path : Path}
    (other : ∀ entry ∈ entries, entry.1 ≠ path) :
    lookup ((entries.map fun entry => Change.add entry.1 entry.2).foldl Change.apply names) path =
      lookup names path := by
  induction entries generalizing names with
  | nil => rfl
  | cons entry rest ih =>
      simp only [List.map_cons, List.foldl_cons]
      rw [ih fun later member => other later (List.mem_cons_of_mem _ member), lookup_add]
      simp [other entry List.mem_cons_self]

theorem planned_dirs_extends (host : Host) (path : Path) (count : Nat) :
    Extends host.names ((((plannedDirs host path).take count).map fun entry =>
      Change.add entry.1 entry.2).foldl Change.apply host.names) := by
  have apart : ∀ entry ∈ (plannedDirs host path).take count, entry.1 ≠ [] ∧
      lookup host.names entry.1 = none := by
    intro entry member
    obtain ⟨location, rest, _, planned⟩ := mem_planned_dirs (List.mem_of_mem_take member)
    refine ⟨?_, planned.free entry.1 planned.below (inside_self _)⟩
    intro top
    have short := (inside_iff _ _).mp planned.below
    rw [top, List.prefix_nil] at short
    exact planned.nonroot short
  constructor
  · exact lookup_adds fun entry member => (apart entry member).1
  · intro path present
    refine lookup_adds fun entry member same => present ?_
    rw [← same]
    exact (apart entry member).2

theorem realpath_kept {before after : Names} {path real : Path}
    (found : realpath before path = .ok real)
    (agrees : ∀ name ∈ trail before maxLinks [] (Path.segs path), Agrees before after name) :
    realpath after path = .ok real := by
  have same : resolve after path = resolve before path := walk_congr before after maxLinks [] _ agrees
  unfold realpath at found ⊢
  rwa [same]

theorem realpath_extends {before after : Names} {path real : Path} (more : Extends before after)
    (found : realpath before path = .ok real) : realpath after path = .ok real := by
  refine realpath_kept found fun name member => ?_
  obtain ⟨left, walked⟩ := realpath_ok_iff.mp found
  rcases trail_present before maxLinks [] _ (Or.inl (real_root before)) walked name member with root | present
  · rw [root]
    exact more.1
  · exact more.2 name present

end Kept

end Countinghouse.HostEffects
