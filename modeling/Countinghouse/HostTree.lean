import Mathlib.Data.List.Induction
import Mathlib.Data.List.Infix
import Mathlib.Data.List.Nodup

/-!
A directory tree with symbolic links, and the walk a POSIX host makes through it.

A tree is the finite list of its names, each under its real path: the names from
the root down with no link on the way. The root itself has no name and is a
directory. Hard links are names with one inode. Nothing here belongs to a
particular program.
-/

namespace Countinghouse.HostTree

abbrev Name := String

/-- An absolute, normalised path: its names from the root down. -/
abbrev Path := List Name

/-- One component of a path text. An empty component counts as `here`. -/
inductive Seg where
  | here
  | up
  | name (name : Name)
  deriving DecidableEq

/-- A path text split at its slashes, as a symbolic link stores it. -/
structure PathText where
  absolute : Bool
  segs : List Seg
  deriving DecidableEq

inductive Kind where
  | dir
  | file
  | link (target : PathText)
  | special
  deriving DecidableEq

structure Node where
  ino : Nat
  kind : Kind
  deriving DecidableEq

abbrev Names := List (Path × Node)

def lookup (names : Names) (path : Path) : Option Node :=
  (names.find? fun entry => entry.1 == path).map Prod.snd

def isDir (names : Names) (path : Path) : Bool :=
  path.isEmpty || (lookup names path).any fun node => decide (node.kind = .dir)

/-- `inner` is `outer` or lies below it. -/
def inside (inner outer : Path) : Bool := outer.isPrefixOf inner

/-- The codes of failing calls; the last is for a value refused before the call. -/
inductive Errno where
  | ENOENT | ENOTDIR | ELOOP | EEXIST | EISDIR | ENOTEMPTY | EINVAL | EPERM | EACCES | EIOERROR | EROFS
  | EBUSY | EXDEV | EMFILE | EBADF | EFBIG | ENOBUFS | ENOSPC | ENXIO | ERR_INVALID_ARG
  deriving DecidableEq

/-- Where a walk ends: at a name that exists and is no link, at a missing name in
an existing directory, or nowhere. `left` is how many links it may still follow. -/
inductive Walk where
  | found (location : Path) (left : Nat)
  | missing (location : Path) (left : Nat)
  | failed (code : Errno)
  deriving DecidableEq

/-- Where the target of a link in directory `dir` starts. -/
def PathText.start (text : PathText) (dir : Path) : Path := if text.absolute then [] else dir

/-- The walk from directory to directory, with `onLink` for what a link leads to. -/
def walkWith (names : Names) (onLink : Path → List Seg → Walk) (left : Nat) : Path → List Seg → Walk
  | dir, [] => .found dir left
  | dir, seg :: rest =>
      if isDir names dir then
        match seg with
        | .here => walkWith names onLink left dir rest
        | .up => walkWith names onLink left dir.dropLast rest
        | .name name =>
            match lookup names (dir ++ [name]) with
            | none => if rest.isEmpty then .missing (dir ++ [name]) left else .failed .ENOENT
            | some ⟨_, .link target⟩ => onLink (target.start dir) (target.segs ++ rest)
            | some _ => walkWith names onLink left (dir ++ [name]) rest
      else .failed .ENOTDIR

/-- A walk that follows at most `links` links, the last component's included. -/
def walk (names : Names) : Nat → Path → List Seg → Walk
  | 0 => walkWith names (fun _ _ => .failed .ELOOP) 0
  | links + 1 => walkWith names (walk names links) (links + 1)

/-- Every directory the walk stands in and every name it looks up. -/
def trailWith (names : Names) (onLink : Path → List Seg → List Path) : Path → List Seg → List Path
  | dir, [] => [dir]
  | dir, seg :: rest =>
      dir :: if isDir names dir then
        match seg with
        | .here => trailWith names onLink dir rest
        | .up => trailWith names onLink dir.dropLast rest
        | .name name =>
            (dir ++ [name]) ::
              match lookup names (dir ++ [name]) with
              | none => []
              | some ⟨_, .link target⟩ => onLink (target.start dir) (target.segs ++ rest)
              | some _ => trailWith names onLink (dir ++ [name]) rest
      else []

def trail (names : Names) : Nat → Path → List Seg → List Path
  | 0 => trailWith names fun _ _ => []
  | links + 1 => trailWith names (trail names links)

def Path.segs (path : Path) : List Seg := path.map .name

/-- The number of links a host follows before it answers ELOOP. -/
def maxLinks : Nat := 40

/-- A host path walked from the root, links followed. -/
def resolve (names : Names) (path : Path) : Walk := walk names maxLinks [] (Path.segs path)

/-- `realpath`: the location of an existing object. -/
def realpath (names : Names) (path : Path) : Except Errno Path :=
  match resolve names path with
  | .found location _ => .ok location
  | .missing _ _ => .error .ENOENT
  | .failed code => .error code

/-! What a walk depends on. -/
section Walking

theorem inside_iff (inner outer : Path) : inside inner outer = true ↔ outer <+: inner := by
  simp [inside, List.isPrefixOf_iff_prefix]

theorem inside_self (path : Path) : inside path path = true := (inside_iff _ _).mpr (List.prefix_refl _)

theorem inside_trans {inner middle outer : Path} (first : inside inner middle = true)
    (second : inside middle outer = true) : inside inner outer = true :=
  (inside_iff _ _).mpr (((inside_iff _ _).mp second).trans ((inside_iff _ _).mp first))

theorem inside_antisymm {a b : Path} (first : inside a b = true) (second : inside b a = true) : a = b :=
  ((inside_iff _ _).mp second).eq_of_length_le ((inside_iff _ _).mp first).length_le

theorem mem_of_names_lookup {names : Names} {path : Path} {node : Node}
    (found : lookup names path = some node) : (path, node) ∈ names := by
  unfold lookup at found
  obtain ⟨entry, here, same⟩ := Option.map_eq_some_iff.mp found
  have key := List.find?_some here
  rw [beq_iff_eq] at key
  rw [← key, ← same]
  exact List.mem_of_find?_eq_some here

theorem root_is_dir (names : Names) : isDir names [] = true := rfl

theorem walk_nil (names : Names) (links : Nat) (dir : Path) :
    walk names links dir [] = .found dir links := by
  cases links <;> rfl

/-- One component of a walk; the names of a walk are looked up one by one. -/
theorem walk_cons (names : Names) (links : Nat) (dir : Path) (seg : Seg) (rest : List Seg) :
    walk names links dir (seg :: rest) =
      if isDir names dir then
        match seg with
        | .here => walk names links dir rest
        | .up => walk names links dir.dropLast rest
        | .name name =>
            match lookup names (dir ++ [name]) with
            | none => if rest.isEmpty then .missing (dir ++ [name]) links else .failed .ENOENT
            | some ⟨_, .link target⟩ =>
                match links with
                | 0 => .failed .ELOOP
                | fewer + 1 => walk names fewer (target.start dir) (target.segs ++ rest)
            | some _ => walk names links (dir ++ [name]) rest
      else .failed .ENOTDIR := by
  cases links <;> rfl

theorem trail_cons (names : Names) (links : Nat) (dir : Path) (seg : Seg) (rest : List Seg) :
    trail names links dir (seg :: rest) =
      dir :: if isDir names dir then
        match seg with
        | .here => trail names links dir rest
        | .up => trail names links dir.dropLast rest
        | .name name =>
            (dir ++ [name]) ::
              match lookup names (dir ++ [name]) with
              | none => []
              | some ⟨_, .link target⟩ =>
                  match links with
                  | 0 => []
                  | fewer + 1 => trail names fewer (target.start dir) (target.segs ++ rest)
              | some _ => trail names links (dir ++ [name]) rest
      else [] := by
  cases links <;> rfl

variable {names : Names} {links : Nat} {dir : Path} {name : Name} {rest : List Seg}

theorem walk_blocked (seg : Seg) (closed : isDir names dir = false) :
    walk names links dir (seg :: rest) = .failed .ENOTDIR := by
  simp [walk_cons, closed]

theorem walk_here (opened : isDir names dir = true) :
    walk names links dir (.here :: rest) = walk names links dir rest := by
  simp [walk_cons, opened]

theorem walk_up (opened : isDir names dir = true) :
    walk names links dir (.up :: rest) = walk names links dir.dropLast rest := by
  simp [walk_cons, opened]

theorem walk_absent (opened : isDir names dir = true) (absent : lookup names (dir ++ [name]) = none) :
    walk names links dir (.name name :: rest) =
      if rest.isEmpty then .missing (dir ++ [name]) links else .failed .ENOENT := by
  simp [walk_cons, opened, absent]

theorem walk_loop {ino : Nat} {target : PathText} (opened : isDir names dir = true)
    (linked : lookup names (dir ++ [name]) = some ⟨ino, .link target⟩) :
    walk names 0 dir (.name name :: rest) = .failed .ELOOP := by
  simp [walk_cons, opened, linked]

theorem walk_follow {ino : Nat} {target : PathText} (opened : isDir names dir = true)
    (linked : lookup names (dir ++ [name]) = some ⟨ino, .link target⟩) :
    walk names (links + 1) dir (.name name :: rest) =
      walk names links (target.start dir) (target.segs ++ rest) := by
  simp [walk_cons, opened, linked]

theorem walk_enter {node : Node} (opened : isDir names dir = true)
    (present : lookup names (dir ++ [name]) = some node) (plain : ∀ target, node.kind ≠ .link target) :
    walk names links dir (.name name :: rest) = walk names links (dir ++ [name]) rest := by
  obtain ⟨ino, kind⟩ := node
  cases kind with
  | link target => exact absurd rfl (plain target)
  | dir => simp [walk_cons, opened, present]
  | file => simp [walk_cons, opened, present]
  | special => simp [walk_cons, opened, present]

/-- The induction a walk follows: first on the links it may still follow, then
on the components that remain. -/
theorem walk_induct (names : Names) {motive : Nat → Path → List Seg → Prop}
    (stop : ∀ links dir, motive links dir [])
    (blocked : ∀ links dir seg rest, isDir names dir = false → motive links dir (seg :: rest))
    (here : ∀ links dir rest, isDir names dir = true → motive links dir rest →
      motive links dir (.here :: rest))
    (up : ∀ links dir rest, isDir names dir = true → motive links dir.dropLast rest →
      motive links dir (.up :: rest))
    (absent : ∀ links dir name rest, isDir names dir = true → lookup names (dir ++ [name]) = none →
      motive links dir (.name name :: rest))
    (loop : ∀ dir name rest ino target, isDir names dir = true →
      lookup names (dir ++ [name]) = some ⟨ino, .link target⟩ → motive 0 dir (.name name :: rest))
    (follow : ∀ links dir name rest ino target, isDir names dir = true →
      lookup names (dir ++ [name]) = some ⟨ino, .link target⟩ →
      motive links (target.start dir) (target.segs ++ rest) →
      motive (links + 1) dir (.name name :: rest))
    (enter : ∀ links dir name rest node, isDir names dir = true →
      lookup names (dir ++ [name]) = some node → (∀ target, node.kind ≠ .link target) →
      motive links (dir ++ [name]) rest → motive links dir (.name name :: rest)) :
    ∀ links dir segs, motive links dir segs := by
  -- within one number of links the walk is structural; only a link lowers it
  have level : ∀ links, (∀ dir name rest ino target, isDir names dir = true →
      lookup names (dir ++ [name]) = some ⟨ino, .link target⟩ → motive links dir (.name name :: rest)) →
      ∀ dir segs, motive links dir segs := by
    intro links jump dir segs
    induction segs generalizing dir with
    | nil => exact stop links dir
    | cons seg rest ih =>
        cases opened : isDir names dir with
        | false => exact blocked links dir seg rest opened
        | true =>
            cases seg with
            | here => exact here links dir rest opened (ih dir)
            | up => exact up links dir rest opened (ih dir.dropLast)
            | name name =>
                cases present : lookup names (dir ++ [name]) with
                | none => exact absent links dir name rest opened present
                | some node =>
                    by_cases linked : ∃ target, node.kind = .link target
                    · obtain ⟨target, same⟩ := linked
                      exact jump dir name rest node.ino target opened (by rw [present, ← same])
                    · exact enter links dir name rest node opened present
                        (fun target same => linked ⟨target, same⟩) (ih (dir ++ [name]))
  intro links
  induction links with
  | zero => exact level 0 loop
  | succ links ih =>
      exact level (links + 1) fun dir name rest ino target opened linked =>
        follow links dir name rest ino target opened linked (ih _ _)

/-- A walk goes on where the walk of a first part of the components ended. -/
def Walk.andThen (names : Names) (rest : List Seg) : Walk → Walk
  | .found location left => walk names left location rest
  | .missing location left => if rest.isEmpty then .missing location left else .failed .ENOENT
  | .failed code => .failed code

theorem walk_append (names : Names) (links : Nat) (dir : Path) (first rest : List Seg) :
    walk names links dir (first ++ rest) = (walk names links dir first).andThen names rest := by
  induction links, dir, first using walk_induct names with
  | stop links dir => rw [List.nil_append, walk_nil, Walk.andThen]
  | blocked links dir seg tail closed =>
      rw [List.cons_append, walk_blocked _ closed, walk_blocked _ closed, Walk.andThen]
  | here links dir tail opened ih => rw [List.cons_append, walk_here opened, walk_here opened, ih]
  | up links dir tail opened ih => rw [List.cons_append, walk_up opened, walk_up opened, ih]
  | absent links dir name tail opened absent =>
      rw [List.cons_append, walk_absent opened absent, walk_absent opened absent]
      cases tail <;> cases rest <;> simp [Walk.andThen]
  | loop dir name tail ino target opened linked =>
      rw [List.cons_append, walk_loop opened linked, walk_loop opened linked, Walk.andThen]
  | follow links dir name tail ino target opened linked ih =>
      rw [List.cons_append, walk_follow opened linked, walk_follow opened linked,
        ← List.append_assoc, ih]
  | enter links dir name tail node opened present plain ih =>
      rw [List.cons_append, walk_enter opened present plain, walk_enter opened present plain, ih]

end Walking

/-! Real locations. A directory is real when every prefix of its path is a
directory; a walk that starts in one stays among them. -/
section Locations

def RealDir (names : Names) (path : Path) : Prop := ∀ outer, outer <+: path → isDir names outer = true

/-- The location of an existing object that is not a link. -/
def Located (names : Names) (location : Path) : Prop :=
  RealDir names location ∨
    ∃ dir name node, location = dir ++ [name] ∧ RealDir names dir ∧
      lookup names location = some node ∧ ∀ target, node.kind ≠ .link target

/-- A free name in a real directory. -/
def Vacant (names : Names) (location : Path) : Prop :=
  ∃ dir name, location = dir ++ [name] ∧ RealDir names dir ∧ lookup names location = none

theorem real_root (names : Names) : RealDir names [] := by
  intro outer short
  rw [List.prefix_nil.mp short]
  exact root_is_dir names

theorem real_drop_last {names : Names} {path : Path} (real : RealDir names path) :
    RealDir names path.dropLast :=
  fun outer short => real outer (short.trans (List.dropLast_prefix path))

theorem real_snoc {names : Names} {dir : Path} {name : Name} (real : RealDir names dir)
    (opened : isDir names (dir ++ [name]) = true) : RealDir names (dir ++ [name]) := by
  intro outer short
  rcases List.prefix_concat_iff.mp short with same | before
  · rw [same]; exact opened
  · exact real outer before

theorem located_dir {names : Names} {location : Path} (located : Located names location)
    (opened : isDir names location = true) : RealDir names location := by
  rcases located with real | ⟨dir, name, node, rfl, real, _, _⟩
  · exact real
  · exact real_snoc real opened

theorem walk_start_real {names : Names} {dir : Path} (target : PathText) (real : RealDir names dir) :
    RealDir names (target.start dir) := by
  unfold PathText.start
  split
  · exact real_root names
  · exact real

/-- A walk from a real directory ends at a located object or at a vacant name. -/
theorem walk_located (names : Names) (links : Nat) (dir : Path) (segs : List Seg)
    (start : Located names dir) :
    (∀ location left, walk names links dir segs = .found location left → Located names location) ∧
      ∀ location left, walk names links dir segs = .missing location left → Vacant names location := by
  induction links, dir, segs using walk_induct names with
  | stop links dir =>
      rw [walk_nil]
      refine ⟨fun location left same => ?_, by simp⟩
      simp only [Walk.found.injEq] at same
      exact same.1 ▸ start
  | blocked links dir seg tail closed =>
      rw [walk_blocked _ closed]
      exact ⟨by simp, by simp⟩
  | here links dir tail opened ih => rw [walk_here opened]; exact ih start
  | up links dir tail opened ih =>
      rw [walk_up opened]
      exact ih (Or.inl (real_drop_last (located_dir start opened)))
  | absent links dir name tail opened absent =>
      rw [walk_absent opened absent]
      cases tail with
      | nil =>
          refine ⟨by simp, fun location left same => ?_⟩
          simp only [List.isEmpty_nil, if_true, Walk.missing.injEq] at same
          exact ⟨dir, name, same.1.symm, located_dir start opened, same.1 ▸ absent⟩
      | cons seg tail => exact ⟨by simp, by simp⟩
  | loop dir name tail ino target opened linked =>
      rw [walk_loop opened linked]
      exact ⟨by simp, by simp⟩
  | follow links dir name tail ino target opened linked ih =>
      rw [walk_follow opened linked]
      exact ih (Or.inl (walk_start_real target (located_dir start opened)))
  | enter links dir name tail node opened present plain ih =>
      rw [walk_enter opened present plain]
      exact ih (Or.inr ⟨dir, name, node, rfl, located_dir start opened, present, plain⟩)

/-- A path of real directories leads to itself, without following a link. -/
theorem walk_real (names : Names) (links : Nat) (dir : Path) (rest : List Seg)
    (real : RealDir names dir) :
    walk names links [] (Path.segs dir ++ rest) = walk names links dir rest := by
  induction dir using List.reverseRecOn generalizing rest with
  | nil => rfl
  | append_singleton outer name ih =>
      have realOuter : RealDir names outer := fun q short => real q (short.trans (List.prefix_append _ _))
      have entered := real (outer ++ [name]) (List.prefix_refl _)
      have present : ∃ node, lookup names (outer ++ [name]) = some node ∧ node.kind = .dir := by
        simpa [isDir, Option.any_eq_true] using entered
      obtain ⟨node, found, directory⟩ := present
      have plain : ∀ target, node.kind ≠ .link target := by simp [directory]
      have segs : Path.segs (outer ++ [name]) ++ rest = Path.segs outer ++ .name name :: rest := by
        simp [Path.segs]
      rw [segs, ih _ realOuter, walk_enter (realOuter outer (List.prefix_refl _)) found plain]

end Locations

/-! A walk reads only the names on its trail. -/
section Frame

/-- Two trees agree on a path. -/
def Agrees (before after : Names) (path : Path) : Prop := lookup after path = lookup before path

theorem agrees_is_dir {before after : Names} {path : Path} (agrees : Agrees before after path) :
    isDir after path = isDir before path := by
  unfold isDir
  rw [agrees]

theorem walk_congr (before after : Names) (links : Nat) (dir : Path) (segs : List Seg)
    (agrees : ∀ path ∈ trail before links dir segs, Agrees before after path) :
    walk after links dir segs = walk before links dir segs := by
  induction links, dir, segs using walk_induct before with
  | stop links dir => rw [walk_nil, walk_nil]
  | blocked links dir seg tail closed =>
      have same := agrees_is_dir (agrees dir (by rw [trail_cons]; exact List.mem_cons_self))
      rw [walk_blocked _ closed, walk_blocked _ (same.trans closed)]
  | here links dir tail opened ih =>
      have same := agrees_is_dir (agrees dir (by rw [trail_cons]; exact List.mem_cons_self))
      rw [walk_here opened, walk_here (same.trans opened)]
      refine ih fun path member => agrees path ?_
      simp [trail_cons, opened, member]
  | up links dir tail opened ih =>
      have same := agrees_is_dir (agrees dir (by rw [trail_cons]; exact List.mem_cons_self))
      rw [walk_up opened, walk_up (same.trans opened)]
      refine ih fun path member => agrees path ?_
      simp [trail_cons, opened, member]
  | absent links dir name tail opened absent =>
      have same := agrees_is_dir (agrees dir (by rw [trail_cons]; exact List.mem_cons_self))
      have kept := agrees (dir ++ [name]) (by simp [trail_cons, opened])
      rw [walk_absent opened absent, walk_absent (same.trans opened) (kept.trans absent)]
  | loop dir name tail ino target opened linked =>
      have same := agrees_is_dir (agrees dir (by rw [trail_cons]; exact List.mem_cons_self))
      have kept := agrees (dir ++ [name]) (by simp [trail_cons, opened])
      rw [walk_loop opened linked, walk_loop (same.trans opened) (kept.trans linked)]
  | follow links dir name tail ino target opened linked ih =>
      have same := agrees_is_dir (agrees dir (by rw [trail_cons]; exact List.mem_cons_self))
      have kept := agrees (dir ++ [name]) (by simp [trail_cons, opened])
      rw [walk_follow opened linked, walk_follow (same.trans opened) (kept.trans linked)]
      refine ih fun path member => agrees path ?_
      simp [trail_cons, opened, linked, member]
  | enter links dir name tail node opened present plain ih =>
      have same := agrees_is_dir (agrees dir (by rw [trail_cons]; exact List.mem_cons_self))
      have kept := agrees (dir ++ [name]) (by simp [trail_cons, opened])
      rw [walk_enter opened present plain, walk_enter (same.trans opened) (kept.trans present) plain]
      refine ih fun path member => agrees path ?_
      obtain ⟨ino, kind⟩ := node
      cases kind with
      | link target => exact absurd rfl (plain target)
      | dir => simp [trail_cons, opened, present, member]
      | file => simp [trail_cons, opened, present, member]
      | special => simp [trail_cons, opened, present, member]

def Present (names : Names) (path : Path) : Prop := path = [] ∨ lookup names path ≠ none

theorem located_present {names : Names} {location : Path} (located : Located names location) :
    Present names location := by
  rcases located with real | ⟨_, _, node, _, _, found, _⟩
  · have opened := real location (List.prefix_refl _)
    by_cases root : location = []
    · exact Or.inl root
    · refine Or.inr fun absent => ?_
      simp [isDir, root, absent] at opened
  · exact Or.inr (by simp [found])

/-- A location is the host's root or one of the names. -/
theorem located_among {names : Names} {location : Path} (located : Located names location) :
    location ∈ [] :: names.map Prod.fst := by
  rcases located_present located with rfl | present
  · exact List.mem_cons_self
  · cases found : lookup names location with
    | none => exact absurd found present
    | some node => exact List.mem_cons_of_mem _ (List.mem_map.mpr ⟨_, mem_of_names_lookup found, rfl⟩)

/-- Every name on the trail of a walk that finds an object exists. -/
theorem trail_present (names : Names) (links : Nat) (dir : Path) (segs : List Seg)
    (start : Located names dir) {location : Path} {left : Nat}
    (found : walk names links dir segs = .found location left) :
    ∀ path ∈ trail names links dir segs, Present names path := by
  have first := located_present start
  induction links, dir, segs using walk_induct names with
  | stop links dir =>
      intro path member
      have same : path = dir := by cases links <;> simpa [trail, trailWith] using member
      exact same ▸ first
  | blocked links dir seg tail closed => simp [walk_blocked _ closed] at found
  | here links dir tail opened ih =>
      rw [walk_here opened] at found
      simpa [trail_cons, opened, first] using ih start found first
  | up links dir tail opened ih =>
      rw [walk_up opened] at found
      have outer : Located names dir.dropLast := Or.inl (real_drop_last (located_dir start opened))
      simpa [trail_cons, opened, first] using ih outer found (located_present outer)
  | absent links dir name tail opened absent =>
      rw [walk_absent opened absent] at found
      cases tail <;> simp at found
  | loop dir name tail ino target opened linked => simp [walk_loop opened linked] at found
  | follow links dir name tail ino target opened linked ih =>
      rw [walk_follow opened linked] at found
      have outer : Located names (target.start dir) :=
        Or.inl (walk_start_real target (located_dir start opened))
      have here : Present names (dir ++ [name]) := Or.inr (by simp [linked])
      simpa [trail_cons, opened, linked, first, here] using ih outer found (located_present outer)
  | enter links dir name tail node opened present plain ih =>
      rw [walk_enter opened present plain] at found
      have inner : Located names (dir ++ [name]) :=
        Or.inr ⟨dir, name, node, rfl, located_dir start opened, present, plain⟩
      have later := ih inner found (located_present inner)
      obtain ⟨ino, kind⟩ := node
      cases kind with
      | link target => exact absurd rfl (plain target)
      | dir => simpa [trail_cons, opened, present, first, located_present inner] using later
      | file => simpa [trail_cons, opened, present, first, located_present inner] using later
      | special => simpa [trail_cons, opened, present, first, located_present inner] using later

end Frame

end Countinghouse.HostTree
