import Mathlib
import Countinghouse.HostTree

/-!
A module's file namespace, lib/fs-broker/namespace.js: /app, /data, /tmp and the
declared paths, the directories above them, and everything else. `prepare`
resolves every root once against the host tree; after that `resolve`,
`rootForReal` and `toVirtual` are path arithmetic.

A path text is split at its slashes, so `inside` is the test on names that the
source makes on text with a slash appended.
-/

namespace Countinghouse.FileNamespace

open HostTree

inductive Access where
  | r
  | rw
  deriving DecidableEq

inductive RootName where
  | app | data | tmp | declared
  deriving DecidableEq

inductive RootType where
  | dir | file | missing
  deriving DecidableEq

structure Root where
  vroot : Path
  host : Path
  real : Path
  access : Access
  quota : Bool
  name : RootName
  type : RootType
  deriving DecidableEq

def Root.writable (root : Root) : Bool := root.access = .rw

/-- The UTF-16 units of a string, which JavaScript counts and compares. -/
def units (text : String) : List Nat :=
  text.toList.flatMap fun c =>
    if c.toNat < 0x10000 then [c.toNat]
    else [0xD800 + (c.toNat - 0x10000) / 0x400, 0xDC00 + (c.toNat - 0x10000) % 0x400]

/-- The length of a path's text, by which the roots are sorted. A name has at least
one unit. -/
def textLength (path : Path) : Nat :=
  if path.isEmpty then 1 else (path.map fun name => 1 + max 1 (units name).length).sum

/-- Longest first; roots of one length stay in their order. -/
def longestFirst (key : Root → Path) (roots : List Root) : List Root :=
  roots.insertionSort fun a b => textLength (key b) ≤ textLength (key a)

structure Namespace where
  roots : List Root
  refused : List (Path × String)

def Namespace.byVroot (ns : Namespace) : List Root := longestFirst Root.vroot ns.roots
def Namespace.byReal (ns : Namespace) : List Root := longestFirst Root.real ns.roots
def Namespace.byHost (ns : Namespace) : List Root := longestFirst Root.host ns.roots

/-! Preparing the roots at spawn. -/
section Prepare

structure Config where
  moduleRoot : Path
  dataDir : Path
  tmpDir : Path
  declared : List (Path × Access)
  protectedPaths : List Path
  /-- The real paths that a hardened server got from its parent. -/
  known : List (Path × Path)

def realOf (known : List (Path × Path)) (names : Names) (path : Path) : Path :=
  match known.lookup path with
  | some real => real
  | none =>
      match realpath names path with
      | .ok real => real
      | .error _ => path

def typeOf (names : Names) (path : Path) : RootType :=
  match realpath names path with
  | .ok location => if isDir names location then .dir else .file
  | .error _ => .missing

def pathText (path : Path) : String := if path.isEmpty then "/" else String.join (path.map ("/" ++ ·))

def overlaps (a b : Path) : Bool := inside a b || inside b a

/-- The protected path, if any, that a declared one overlaps in either spelling. -/
def clash (cfg : Config) (names : Names) (path : Path) : Option Path :=
  cfg.protectedPaths.find? fun kept =>
    overlaps kept path || overlaps (realOf cfg.known names kept) (realOf cfg.known names path)

def prepareRoot (cfg : Config) (names : Names) (vroot host : Path) (access : Access) (quota : Bool)
    (name : RootName) : Root :=
  ⟨vroot, host, realOf cfg.known names host, access, quota, name, typeOf names host⟩

def prepare (cfg : Config) (names : Names) : Namespace where
  roots :=
    [prepareRoot cfg names ["app"] cfg.moduleRoot .r false .app,
      prepareRoot cfg names ["data"] cfg.dataDir .rw true .data,
      prepareRoot cfg names ["tmp"] cfg.tmpDir .rw true .tmp] ++
    (cfg.declared.filter fun d => (clash cfg names d.1).isNone).map fun d =>
      prepareRoot cfg names d.1 d.1 d.2 false .declared
  refused := cfg.declared.filterMap fun d =>
    (clash cfg names d.1).map fun kept => (d.1, "overlaps countinghouse's " ++ pathText kept)

end Prepare

/-! From a path argument to a place in the namespace. -/
section Resolve

/-- A path argument of a module: the text of a string, Buffer or file URL, or a
value that `toVirtualPath` refuses. -/
inductive PathArg where
  | text (path : PathText)
  | notPath
  | nullByte
  deriving DecidableEq

/-- `path.resolve`: the components of a text taken from a directory, by text alone. -/
def lexical (dir : Path) (segs : List Seg) : Path :=
  segs.foldl (fun path seg =>
    match seg with
    | .here => path
    | .up => path.dropLast
    | .name name => path ++ [name]) dir

def resolveText (dir : Path) (text : PathText) : Path := lexical (text.start dir) text.segs

/-- `none` is the TypeError of a value that is no path. -/
def toVirtualPath (cwd : Path) : PathArg → Option Path
  | .text path => some (resolveText cwd path)
  | .notPath => none
  | .nullByte => none

structure Child where
  name : Name
  type : RootType
  deriving DecidableEq

inductive Resolution where
  | root (virtual host : Path) (root : Root)
  | ancestor (virtual : Path) (children : List Child)
  | outside (virtual : Path)
  deriving DecidableEq

/-- The order of JavaScript's `sort()` on strings. -/
def textLe (a b : String) : Bool := decide (units a ≤ units b)

/-- The entry that a root below `virtual` adds to its listing. -/
def childOf (virtual : Path) (root : Root) : Option Child :=
  match root.vroot.drop virtual.length with
  | [] => none
  | [name] => some ⟨name, if root.type = .file then .file else .dir⟩
  | name :: _ => some ⟨name, .dir⟩

def addChild (seen : List Child) (child : Child) : List Child :=
  if seen.any fun other => other.name == child.name then
    if child.type = .dir then seen.map fun other => if other.name == child.name then child else other
    else seen
  else seen ++ [child]

def children (ns : Namespace) (virtual : Path) : List Child :=
  ((ns.byVroot.filterMap fun root =>
      if inside root.vroot virtual && root.vroot != virtual then childOf virtual root else none).foldl
    addChild []).insertionSort fun a b => textLe a.name b.name = true

def resolve (ns : Namespace) (virtual : Path) : Resolution :=
  match ns.byVroot.find? fun root => inside virtual root.vroot with
  | some root => .root virtual (root.host ++ virtual.drop root.vroot.length) root
  | none =>
      if ns.roots.any fun root => inside root.vroot virtual then .ancestor virtual (children ns virtual)
      else .outside virtual

def rootForReal (ns : Namespace) (location : Path) : Option Root :=
  ns.byReal.find? fun root => inside location root.real

/-- `target + path.slice(root.length)`, for a path inside a root. What is left of a path below `/` has lost its slash, so
its first name runs on from the last one of the target. -/
def swapped (root target path : Path) : Path :=
  match root, target.getLast?, path with
  | [], some last, name :: rest => target.dropLast ++ (last ++ name) :: rest
  | _, _, _ => target ++ path.drop root.length

def toVirtual (ns : Namespace) (location : Path) : Option Path :=
  match rootForReal ns location with
  | some root => some (swapped root.real root.vroot location)
  | none =>
      (ns.byHost.find? fun root => inside location root.host).map fun root => swapped root.host root.vroot location

end Resolve

/-! The root that holds a location is the longest one that does. -/
section Longest

theorem text_length_lt {a b : Path} (short : a <+: b) (longer : a ≠ b) :
    textLength a < textLength b := by
  obtain ⟨rest, rfl⟩ := short
  cases rest with
  | nil => simp at longer
  | cons other rest =>
      cases a with
      | nil =>
          simp only [textLength, List.isEmpty_nil, if_true, List.nil_append, List.isEmpty_cons,
            Bool.false_eq_true, if_false, List.map_cons, List.sum_cons]
          omega
      | cons name a =>
          simp only [textLength, List.cons_append, List.isEmpty_cons, Bool.false_eq_true, if_false,
            List.map_cons, List.map_append, List.sum_cons, List.sum_append]
          omega

theorem mem_longest_first {key : Root → Path} {roots : List Root} {root : Root} :
    root ∈ longestFirst key roots ↔ root ∈ roots := List.mem_insertionSort _

/-- What `find` takes from the sorted roots is at least as long as any other match. -/
theorem find_longest {key : Root → Path} {roots : List Root} {test : Root → Bool} {root other : Root}
    (found : (longestFirst key roots).find? test = some root) (member : other ∈ roots)
    (passes : test other = true) : textLength (key other) ≤ textLength (key root) := by
  have sorted : (longestFirst key roots).Pairwise fun a b => textLength (key b) ≤ textLength (key a) :=
    haveI : Std.Total fun a b : Root => textLength (key b) ≤ textLength (key a) :=
      ⟨fun a b => Nat.le_total _ _⟩
    haveI : IsTrans Root fun a b => textLength (key b) ≤ textLength (key a) :=
      ⟨fun a b c first second => Nat.le_trans second first⟩
    List.pairwise_insertionSort _ roots
  obtain ⟨_, before, after, split, fails⟩ := List.find?_eq_some_iff_append.mp found
  have among : other ∈ before ++ root :: after := split ▸ mem_longest_first.mpr member
  rw [split] at sorted
  rcases List.mem_append.mp among with early | late
  · have refused := fails other early
    simp [passes] at refused
  · rcases List.mem_cons.mp late with same | later
    · rw [same]
    · exact (List.pairwise_cons.mp (List.pairwise_append.mp sorted).2.1).1 other later

theorem root_for_real_some {ns : Namespace} {location : Path} {root : Root}
    (holds : rootForReal ns location = some root) :
    root ∈ ns.roots ∧ inside location root.real = true := by
  constructor
  · exact mem_longest_first.mp (List.mem_of_find?_eq_some holds)
  · simpa using List.find?_some holds

theorem root_for_real_none {ns : Namespace} {location : Path} (free : rootForReal ns location = none)
    {root : Root} (member : root ∈ ns.roots) : inside location root.real = false := by
  have fails := List.find?_eq_none.mp free root (mem_longest_first.mpr member)
  simpa using fails

theorem root_for_real_deepest {ns : Namespace} {location : Path} {root other : Root}
    (holds : rootForReal ns location = some root) (member : other ∈ ns.roots)
    (within : inside location other.real = true) : other.real <+: root.real := by
  have length := find_longest holds member within
  have outer := (inside_iff _ _).mp within
  have inner := (inside_iff _ _).mp (root_for_real_some holds).2
  rcases List.prefix_or_prefix_of_prefix outer inner with short | long
  · exact short
  · by_cases same : root.real = other.real
    · rw [same]
    · have shorter := text_length_lt long same
      omega

end Longest

end Countinghouse.FileNamespace
