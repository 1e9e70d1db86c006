import Countinghouse.FileNamespace
import Countinghouse.HostEffects
import Countinghouse.MarkedSearch

/-!
lib/module-tree-check.js: what is required of a module's directory before it is loaded. The
walk over the packages is a marked search from the module's root, with an edge for each
dependency; the walk over the files is a walk over the names below the root.

A tree is read as it stands: nothing changes while it is checked, and all of it may be read.
-/

namespace Countinghouse.ModuleTree

open HostTree (Path Seg Kind Node Names Errno realpath isDir lookup RealDir Located)
open MarkedSearch (Edge Work Leads)

/-! Trees. -/
section Trees

/-- A package.json: the keys of `dependencies`, whether `gypfile` is true, and the scripts that are set. -/
structure Package where
  dependencies : List String
  gypfile : Bool
  scripts : List String
  deriving DecidableEq

structure Tree where
  names : Names
  distinct : (names.map Prod.fst).Nodup
  /-- What parsing the file gives, or the message of the error. -/
  manifest : Path → Except String Package
  /-- The message of a read that fails. -/
  failure : Errno → String

def existsSync (names : Names) (path : Path) : Bool := (realpath names path).toBool

def segOf (text : String) : Seg :=
  if text = "" ∨ text = "." then .here
  else if text = ".." then .up
  else .name text

/-- `path.join(dir, 'node_modules', name)` -/
def joined (dir : Path) (name : String) : Path :=
  FileNamespace.lexical (dir ++ ["node_modules"]) ((name.toList.splitOn '/').map fun part => segOf (String.ofList part))

/-- `path.relative(root, path)`, for a path inside the root. -/
def relative (root path : Path) : String := "/".intercalate (path.drop root.length)

def orDot (text : String) : String := if text = "" then "." else text

/-- The directory, its parent, and so on to the host's root. -/
def ups (dir : Path) : List Path := dir.inits.reverse

end Trees

/-! The module under check. -/
section Check

variable (tree : Tree)

/-- `{pkg: null}` is a package.json that is not there. -/
def readPkg (dir : Path) : Except String (Option Package) :=
  match realpath tree.names (dir ++ ["package.json"]) with
  | .error .ENOENT => .ok none
  | .error code => .error (tree.failure code)
  | .ok location =>
      if isDir tree.names location then .error (tree.failure .EISDIR) else (tree.manifest location).map some

/-- `Object.keys(pkg.dependencies || {})`, and none of what cannot be read. -/
def dependencies (dir : Path) : List String :=
  match readPkg tree dir with
  | .ok (some pkg) => pkg.dependencies
  | _ => []

/-- Nothing below the host's root is inside it: `root + '/'` begins with two slashes then. -/
def inside (root path : Path) : Bool := path == root || (!root.isEmpty && HostTree.inside path root)

/-- Whether `<dir>/node_modules/<name>` is a directory with a package.json. -/
def hasPackage (name : String) (dir : Path) : Bool := existsSync tree.names (joined dir name ++ ["package.json"])

inductive Search where
  | found (candidate : Path)
  | absent
  /-- The parent of the host's root is the host's root. -/
  | endless
  deriving DecidableEq

/-- The loop over a directory and those above it. -/
def findDependency (root : Path) (name : String) : List Path → Search
  | [] => .endless
  | dir :: above =>
      if hasPackage tree name dir then .found (joined dir name)
      else if dir = root then .absent
      else findDependency root name above

def notInstalled (name label : String) : String :=
  "dependency \"" ++ name ++ "\" (needed by " ++ label ++ ") is not installed inside the module -- " ++
    "install it into the module's own node_modules (npm install --prefix <module>)"

def resolvesOutside (name label : String) (real : Path) : String :=
  "dependency \"" ++ name ++ "\" (needed by " ++ label ++ ") resolves outside the module, to " ++ FileNamespace.pathText real

variable (root : Path)

/-- What the callback of `forEach` does for one name; `walk` is the call it makes. -/
def checkDependency (walk : Path → String → Work Path String → Option (Except Errno (Work Path String))) (dir : Path)
    (label name : String) (work : Work Path String) : Option (Except Errno (Work Path String)) :=
  match findDependency tree root name (ups dir) with
  | .endless => none
  | .absent => some (.ok (work.push (notInstalled name label)))
  | .found candidate =>
      match realpath tree.names candidate with
      | .error code => some (.error code)
      | .ok real =>
          if inside root real then walk real (orDot (relative root real)) work
          else some (.ok (work.push (resolvesOutside name label real)))

def forEach {Value State : Type} (act : Value → State → Option (Except Errno State)) :
    List Value → State → Option (Except Errno State)
  | [], state => some (.ok state)
  | value :: rest, state =>
      match act value state with
      | some (.ok next) => forEach act rest next
      | stopped => stopped

/-- `none` is a call that is still running. -/
def walk : Nat → Path → String → Work Path String → Option (Except Errno (Work Path String))
  | 0, _, _, _ => none
  | fuel + 1, dir, label, work =>
      match realpath tree.names dir with
      | .error code => some (.error code)
      | .ok real =>
          if real ∈ work.seen then some (.ok work)
          else
            match readPkg tree dir with
            | .error _ => some (.ok (work.mark real))
            | .ok pkg =>
                forEach (checkDependency tree root (walk fuel) dir label) ((pkg.map Package.dependencies).getD []) (work.mark real)

structure Report where
  problems : List String
  warnings : List String

def INSTALL_SCRIPTS : List String := ["preinstall", "install", "postinstall"]

def noNativeCode : String := " -- modules may not contain native code"

/-- What is wrong with a name that is no directory. -/
def fileProblems (dir : Path) (name : String) (node : Node) : List String :=
  let rel := relative root (dir ++ [name])
  match node.kind with
  | .link _ =>
      match realpath tree.names (dir ++ [name]) with
      | .error _ => []
      | .ok target =>
          if inside root target then [] else [rel ++ " is a symlink to " ++ FileNamespace.pathText target ++ ", outside the module"]
  | _ =>
      (if ".node".toList.isSuffixOf name.toList then ["native addon " ++ rel ++ noNativeCode] else []) ++
        (if name = "binding.gyp" then [rel ++ " builds native code" ++ noNativeCode] else []) ++
          if name = "package.json" then
            match readPkg tree dir with
            | .error error => [rel ++ " cannot be parsed: " ++ error]
            | .ok pkg => if pkg.any Package.gypfile then [rel ++ " sets \"gypfile\": true" ++ noNativeCode] else []
          else []

def fileWarnings (dir : Path) (name : String) (node : Node) : List String :=
  match node.kind, readPkg tree dir with
  | .link _, _ => []
  | _, .ok (some pkg) =>
      if name = "package.json" then
        (INSTALL_SCRIPTS.filter fun script => script ∈ pkg.scripts).map fun script =>
          orDot (relative root dir) ++ " has a \"" ++ script ++ "\" script, which npm runs at install time"
      else []
  | _, _ => []

/-- What the callback of `forEach` does for one entry; `walk` is the call it makes. -/
def checkEntry (walk : Path → Report → Option (Except Errno Report)) (dir : Path) (entry : Path × Node) (report : Report) :
    Option (Except Errno Report) :=
  let name := entry.1.getLast?.getD ""
  if entry.2.kind = .dir then walk (dir ++ [name]) report
  else
    some (.ok ⟨report.problems ++ fileProblems tree root dir name entry.2,
      report.warnings ++ fileWarnings tree root dir name entry.2⟩)

def checkFiles : Nat → Path → Report → Option (Except Errno Report)
  | 0, _, _ => none
  | fuel + 1, dir, report =>
      if isDir tree.names dir then
        forEach (checkEntry tree root (checkFiles fuel) dir) (HostCalls.children tree.names dir) report
      else
        some (.ok { report with problems := report.problems ++ ["cannot read " ++ orDot (relative root dir) ++ ": ENOTDIR"] })

def checkTree (fuel : Nat) (moduleRoot : Path) : Option (Except Errno Report) :=
  match realpath tree.names moduleRoot with
  | .error code => some (.error code)
  | .ok root =>
      match walk tree root fuel root "the module" ⟨[], []⟩ with
      | some (.ok work) => checkFiles tree root fuel root ⟨work.reports, []⟩
      | some (.error code) => some (.error code)
      | none => none

end Check

/-! The property. -/
section Soundness

variable (tree : Tree) (root : Path)

/-- The directories up to the root, the root among them. -/
def upTo : List Path → List Path
  | [] => []
  | dir :: above => if dir = root then [dir] else dir :: upTo above

/-- The directory in whose node_modules the check finds a dependency. -/
def nearest (name : String) (dir : Path) : Option Path := (upTo root (ups dir)).find? (hasPackage tree name)

/-- Node's lookup, which passes over the directories named node_modules and ends at the host's root. -/
def nodeLookup (name : String) (dir : Path) : Option Path :=
  ((ups dir).find? fun outer => outer.getLast? ≠ some "node_modules" && hasPackage tree name outer).map fun outer =>
    joined outer name

def NodeFinds (package : Path) (name : String) (real : Path) : Prop :=
  ∃ candidate, nodeLookup tree name package = some candidate ∧ realpath tree.names candidate = .ok real

def NodeRequires (package real : Path) : Prop := ∃ name ∈ dependencies tree package, NodeFinds tree package name real

/-- A name in the tree: one in a directory that is reached from the root without links. -/
structure InTree (dir : Path) (name : String) (node : Node) : Prop where
  below : root <+: dir
  real : RealDir tree.names dir
  found : lookup tree.names (dir ++ [name]) = some node

structure Sound : Prop where
  packages : ∀ package, Relation.ReflTransGen (NodeRequires tree) root package →
    ∀ name ∈ dependencies tree package, ∃ real, NodeFinds tree package name real ∧ root <+: real
  links : ∀ dir name node target, InTree tree root dir name node → node.kind = .link target →
    ∀ real, realpath tree.names (dir ++ [name]) = .ok real → root <+: real
  files : ∀ dir name node, InTree tree root dir name node → node.kind ≠ .dir → (∀ target, node.kind ≠ .link target) →
    ¬ ".node".toList <:+ name.toList ∧ name ≠ "binding.gyp"

def CheckFinds (package : Path) (name : String) (real : Path) : Prop :=
  ∃ near, nearest tree root name package = some near ∧ realpath tree.names (joined near name) = .ok real ∧ inside root real = true

def CheckRequires (package real : Path) : Prop := ∃ name ∈ dependencies tree package, CheckFinds tree root package name real

/-- There is nothing to say of the files in a directory and below it. -/
def FilesClean (top : Path) : Prop :=
  isDir tree.names top = true ∧ ∀ dir, top <+: dir → RealDir tree.names dir →
    ∀ name node, (dir ++ [name], node) ∈ tree.names → node.kind ≠ .dir → fileProblems tree root dir name node = []

/-- A tree to which the check has no objection. -/
structure Clean : Prop where
  packages : ∀ package, Relation.ReflTransGen (CheckRequires tree root) root package →
    ∀ name ∈ dependencies tree package, ∃ real, CheckFinds tree root package name real
  files : FilesClean tree root root

/-- The check finds the dependency in the node_modules of a directory that is itself named node_modules. -/
def Strays (package : Path) (name : String) : Prop :=
  ∃ near, nearest tree root name package = some near ∧ near.getLast? = some "node_modules"

/-- The packages that Node reaches by dependencies that do not stray. -/
inductive Straight : Path → Prop
  | root : Straight root
  | step {package real : Path} {name : String} : Straight package → name ∈ dependencies tree package →
      ¬ Strays tree root package name → NodeFinds tree package name real → Straight real

/-- For the dependency, or for one of those it leads to, Node finds nothing inside the module. -/
inductive Loses : Path → String → Prop
  | here {package : Path} {name : String} : (¬ ∃ real, NodeFinds tree package name real ∧ root <+: real) → Loses package name
  | later {package real : Path} {name next : String} : NodeFinds tree package name real → next ∈ dependencies tree real →
      Loses real next → Loses package name

/-- A clean tree in which a dependency strays and Node does not find all that it stands for. -/
structure Astray : Prop where
  clean : Clean tree root
  strays : ∃ package name, Straight tree root package ∧ name ∈ dependencies tree package ∧
    Strays tree root package name ∧ Loses tree root package name

end Soundness

/-! Lookups. -/
section Lookups

variable {tree : Tree} {root : Path}

theorem ups_mem {dir outer : Path} : outer ∈ ups dir ↔ outer <+: dir := by simp [ups, List.mem_inits]

theorem inside_below {path : Path} (within : inside root path = true) : root <+: path := by
  simp only [inside, Bool.or_eq_true, Bool.and_eq_true, beq_iff_eq] at within
  rcases within with rfl | ⟨_, below⟩
  · exact List.prefix_refl _
  · exact (HostTree.inside_iff _ _).mp below

theorem find_dependency {name : String} : ∀ {dirs : List Path}, root ∈ dirs →
    findDependency tree root name dirs =
      match (upTo root dirs).find? (hasPackage tree name) with
      | some near => .found (joined near name)
      | none => .absent := by
  intro dirs member
  induction dirs with
  | nil => cases member
  | cons dir above ih =>
      unfold findDependency upTo
      by_cases same : dir = root
      · by_cases has : hasPackage tree name dir = true
        · rw [if_pos has, if_pos same, List.find?_cons_of_pos has]
        · rw [if_neg has, if_pos same, if_pos same, List.find?_cons_of_neg has]
          rfl
      · have later : root ∈ above := by
          rcases List.mem_cons.mp member with equal | later
          · exact absurd equal.symm same
          · exact later
        by_cases has : hasPackage tree name dir = true
        · rw [if_pos has, if_neg same, List.find?_cons_of_pos has]
        · rw [if_neg has, if_neg same, if_neg same, List.find?_cons_of_neg has, ih later]

/-- What is found has a real path. -/
theorem package_located {name : String} {dir : Path} (has : hasPackage tree name dir = true) :
    ∃ real, realpath tree.names (joined dir name) = .ok real := by
  unfold hasPackage existsSync at has
  cases found : realpath tree.names (joined dir name ++ ["package.json"]) with
  | error code => simp [found, Except.toBool] at has
  | ok location =>
      obtain ⟨real, parent⟩ := HostEffects.realpath_parent found
      rw [List.dropLast_concat] at parent
      exact ⟨real, parent⟩

/-- Where a lookup does not stray, Node finds the same directory. -/
theorem same_lookup {package near : Path} {name : String} (found : nearest tree root name package = some near)
    (straight : near.getLast? ≠ some "node_modules") : nodeLookup tree name package = some (joined near name) := by
  -- both go up the same directories until the nearest package, which neither passes over
  have agree : ∀ dirs : List Path, (upTo root dirs).find? (hasPackage tree name) = some near →
      (dirs.find? fun outer => outer.getLast? ≠ some "node_modules" && hasPackage tree name outer) = some near := by
    intro dirs
    induction dirs with
    | nil => simp [upTo]
    | cons dir above ih =>
        intro first
        by_cases has : hasPackage tree name dir = true
        · have isNear : dir = near := by
            unfold upTo at first
            split at first <;> simpa [has] using first
          subst isNear
          simp [has, straight]
        · have later : (upTo root above).find? (hasPackage tree name) = some near := by
            unfold upTo at first
            split at first
            · simp [has] at first
            · simpa [has] using first
          simpa [has] using ih later
  unfold nodeLookup
  rw [agree _ found]
  rfl

theorem check_finds_node {package real : Path} {name : String} (found : CheckFinds tree root package name real)
    (straight : ¬ Strays tree root package name) : NodeFinds tree package name real ∧ root <+: real := by
  obtain ⟨near, isNear, located, within⟩ := found
  have outer : near.getLast? ≠ some "node_modules" := fun named => straight ⟨near, isNear, named⟩
  exact ⟨⟨_, same_lookup isNear outer, located⟩, inside_below within⟩

theorem node_finds_unique {package real other : Path} {name : String} (first : NodeFinds tree package name real)
    (second : NodeFinds tree package name other) : real = other := by
  obtain ⟨candidate, isCandidate, located⟩ := first
  obtain ⟨again, isAgain, also⟩ := second
  rw [isCandidate] at isAgain
  cases isAgain
  rw [located] at also
  exact Except.ok.inj also

end Lookups

/-! The walk over the packages is a marked search. -/
section Packages

variable (tree : Tree) (root : Path)

def labelOf (dir : Path) : String := if dir = root then "the module" else orDot (relative root dir)

def edgeOf (dir : Path) (name : String) : Edge Path String :=
  match nearest tree root name dir with
  | none => .report (notInstalled name (labelOf root dir))
  | some near =>
      match realpath tree.names (joined near name) with
      | .error _ => .report (notInstalled name (labelOf root dir))
      | .ok real => if inside root real then .enter real else .report (resolvesOutside name (labelOf root dir) real)

def edges (dir : Path) : List (Edge Path String) := (dependencies tree dir).map (edgeOf tree root dir)

variable {tree root}

theorem edge_enters (dir : Path) (name : String) (real : Path) :
    edgeOf tree root dir name = .enter real ↔ CheckFinds tree root dir name real := by
  unfold edgeOf CheckFinds
  cases nearest tree root name dir with
  | none => simp
  | some near =>
      cases located : realpath tree.names (joined near name) with
      | error code => simp [located]
      | ok found =>
          by_cases within : inside root found = true
          · simp only [located, within, if_true, Edge.enter.injEq, Option.some.injEq, exists_eq_left', Except.ok.injEq]
            constructor
            · rintro rfl
              exact ⟨rfl, within⟩
            · exact fun both => both.1
          · simp only [located, within, Option.some.injEq, exists_eq_left', Except.ok.injEq, Bool.false_eq_true, if_false, reduceCtorEq,
              false_iff]
            rintro ⟨rfl, also⟩
            exact within also

theorem leads_iff : Leads (edges tree root) = CheckRequires tree root := by
  funext package real
  simp [Leads, edges, CheckRequires, edge_enters]

theorem check_dependency {fuel : Nat} {dir : Path} {label name : String} {work : Work Path String}
    (within : root <+: dir) (isLabel : label = labelOf root dir) (marked : root ∈ work.seen)
    (refines : ∀ real work, Located tree.names real → root <+: real → root ∈ work.seen →
      walk tree root fuel real (orDot (relative root real)) work = (MarkedSearch.visit (edges tree root) fuel real work).map .ok) :
    checkDependency tree root (walk tree root fuel) dir label name work =
      (MarkedSearch.follow (MarkedSearch.visit (edges tree root) fuel) (edgeOf tree root dir name) work).map .ok := by
  have isNearest : (upTo root (ups dir)).find? (hasPackage tree name) = nearest tree root name dir := rfl
  unfold checkDependency edgeOf
  rw [find_dependency (ups_mem.mpr within), isNearest, isLabel]
  cases found : nearest tree root name dir with
  | none => rfl
  | some near =>
      obtain ⟨real, located⟩ := package_located (List.find?_some found)
      simp only [located]
      by_cases isInside : inside root real = true
      · rw [if_pos isInside, if_pos isInside]
        exact refines real work (HostEffects.realpath_located located) (inside_below isInside) marked
      · rw [if_neg isInside, if_neg isInside]
        rfl

theorem for_each_dependency {fuel : Nat} {dir : Path} {label : String} (within : root <+: dir) (isLabel : label = labelOf root dir)
    (refines : ∀ real work, Located tree.names real → root <+: real → root ∈ work.seen →
      walk tree root fuel real (orDot (relative root real)) work = (MarkedSearch.visit (edges tree root) fuel real work).map .ok) :
    ∀ (names : List String) (work : Work Path String), root ∈ work.seen →
      forEach (checkDependency tree root (walk tree root fuel) dir label) names work =
        (MarkedSearch.scan (MarkedSearch.visit (edges tree root) fuel) (names.map (edgeOf tree root dir)) work).map .ok := by
  intro names
  induction names with
  | nil => intro work _; rfl
  | cons name rest ih =>
      intro work marked
      unfold forEach
      rw [check_dependency within isLabel marked refines, List.map_cons, MarkedSearch.scan]
      cases first : MarkedSearch.follow (MarkedSearch.visit (edges tree root) fuel) (edgeOf tree root dir name) work with
      | none => rfl
      | some middle =>
          have grows : MarkedSearch.Grows work middle := by
            cases edge : edgeOf tree root dir name with
            | report text =>
                rw [edge] at first
                cases first
                exact MarkedSearch.grows_push work text
            | enter real =>
                rw [edge] at first
                exact (MarkedSearch.visit_grows fuel real work middle first).1
          exact ih middle (grows.seen marked)

theorem walk_refines (fuel : Nat) : ∀ (dir : Path) (label : String) (work : Work Path String),
    Located tree.names dir → root <+: dir → (dir ∈ work.seen ∨ label = labelOf root dir) → (dir = root ∨ root ∈ work.seen) →
      walk tree root fuel dir label work = (MarkedSearch.visit (edges tree root) fuel dir work).map .ok := by
  induction fuel with
  | zero => intros; rfl
  | succ fuel ih =>
      intro dir label work located within isLabel marked
      unfold walk MarkedSearch.visit
      rw [HostEffects.located_realpath located]
      by_cases known : dir ∈ work.seen
      · simp [known]
      · have its : label = labelOf root dir := isLabel.resolve_left known
        -- a package other than the root is only entered after the root has been marked
        have rootMarked : root ∈ (work.mark dir).seen := by
          rcases marked with rfl | before
          · exact List.mem_cons_self
          · exact List.mem_cons_of_mem _ before
        have nested : ∀ real work, Located tree.names real → root <+: real → root ∈ work.seen →
            walk tree root fuel real (orDot (relative root real)) work =
              (MarkedSearch.visit (edges tree root) fuel real work).map .ok := by
          intro real work located within marked
          refine ih real _ work located within ?_ (.inr marked)
          by_cases same : real = root
          · exact .inl (same ▸ marked)
          · exact .inr (by simp [labelOf, same])
        simp only [known, if_false]
        cases read : readPkg tree dir with
        | error message => simp [edges, dependencies, read, MarkedSearch.scan]
        | ok pkg =>
            have names : (pkg.map Package.dependencies).getD [] = dependencies tree dir := by
              cases pkg <;> simp [dependencies, read]
            simp only [names]
            exact for_each_dependency within its nested _ _ rootMarked

/-- The places of the tree. -/
def places (tree : Tree) : List Path := [] :: tree.names.map Prod.fst

theorem located_place {location : Path} (located : Located tree.names location) : location ∈ places tree :=
  HostTree.located_among located

/-- The walk ends, and without a problem exactly when every dependency is found. -/
theorem walk_ends (located : Located tree.names root) {fuel : Nat} (enough : (places tree).length < fuel) :
    ∃ work, walk tree root fuel root "the module" ⟨[], []⟩ = some (.ok work) ∧
      (work.reports = [] ↔ ∀ package, Relation.ReflTransGen (CheckRequires tree root) root package →
        ∀ name ∈ dependencies tree package, ∃ real, CheckFinds tree root package name real) := by
  have among : ∀ key ∈ places tree, ∀ next, Leads (edges tree root) key next → next ∈ places tree := by
    intro key _ next leads
    rw [leads_iff] at leads
    obtain ⟨name, _, near, _, isReal, _⟩ := leads
    exact located_place (HostEffects.realpath_located isReal)
  have few : MarkedSearch.unseen (places tree) (⟨[], []⟩ : Work Path String) < fuel :=
    Nat.lt_of_le_of_lt (List.length_filter_le _ _) enough
  obtain ⟨work, run⟩ := MarkedSearch.visit_ends among fuel root ⟨[], []⟩ (located_place located) few
  refine ⟨work, ?_, ?_⟩
  · rw [walk_refines fuel root _ _ located (List.prefix_refl _) (.inr (by simp [labelOf])) (.inl rfl), run]
    rfl
  · rw [← leads_iff]
    constructor
    · intro silent package reached name listed
      obtain ⟨_, closed⟩ := MarkedSearch.search_closed run silent reached
      obtain ⟨real, _, enters⟩ := closed _ (List.mem_map.mpr ⟨name, listed, rfl⟩)
      exact ⟨real, (edge_enters package name real).mp enters⟩
    · intro all
      refine MarkedSearch.visit_quiet fuel root ⟨[], []⟩ work (fun package reached text member => ?_) run
      obtain ⟨name, listed, same⟩ := List.mem_map.mp member
      obtain ⟨real, found⟩ := all package reached name listed
      rw [(edge_enters package name real).mpr found] at same
      cases same

end Packages

/-! The walk over the files. -/
section Files

variable {tree : Tree} {root : Path}

theorem for_each_ends {Value : Type} {act : Value → Report → Option (Except Errno Report)} {Good : Value → Prop} :
    ∀ (values : List Value) (report : Report),
      (∀ value ∈ values, ∀ report, ∃ after, act value report = some (.ok after) ∧
        (after.problems = [] ↔ report.problems = [] ∧ Good value)) →
      ∃ after, forEach act values report = some (.ok after) ∧
        (after.problems = [] ↔ report.problems = [] ∧ ∀ value ∈ values, Good value) := by
  intro values
  induction values with
  | nil => intro report _; exact ⟨report, rfl, by simp⟩
  | cons value rest ih =>
      intro report ends
      obtain ⟨middle, first, isClean⟩ := ends value List.mem_cons_self report
      obtain ⟨after, later, areClean⟩ := ih middle fun value member => ends value (List.mem_cons_of_mem _ member)
      refine ⟨after, ?_, ?_⟩
      · unfold forEach
        rw [first]
        exact later
      · rw [areClean, isClean, List.forall_mem_cons, and_assoc]

theorem mem_children {dir : Path} {entry : Path × Node} :
    entry ∈ HostCalls.children tree.names dir ↔ ∃ name, entry ∈ tree.names ∧ entry.1 = dir ++ [name] := by
  simp only [HostCalls.children, List.mem_filter, Bool.and_eq_true, Bool.not_eq_true', List.isEmpty_eq_false_iff, beq_iff_eq]
  constructor
  · rintro ⟨member, nonempty, isDir⟩
    exact ⟨entry.1.getLast nonempty, member, by rw [← isDir, List.dropLast_concat_getLast]⟩
  · rintro ⟨name, member, same⟩
    exact ⟨member, by simp [same], by simp [same]⟩

theorem lookup_of_mem {path : Path} {node : Node} (member : (path, node) ∈ tree.names) : lookup tree.names path = some node := by
  have distinct := tree.distinct
  unfold lookup
  cases found : tree.names.find? fun entry => entry.1 == path with
  | none => exact absurd (List.find?_eq_none.mp found _ member) (by simp)
  | some entry =>
      have same : entry.1 = path := by simpa using List.find?_some found
      have whole := List.inj_on_of_nodup_map distinct (List.mem_of_find?_eq_some found) member same
      rw [whole]
      rfl

theorem dir_of_mem {path : Path} {node : Node} (member : (path, node) ∈ tree.names) (isDirectory : node.kind = .dir) :
    isDir tree.names path = true := by
  simp [isDir, lookup_of_mem member, isDirectory]

theorem below_fewer {dir : Path} {name : String} {node : Node} (member : (dir ++ [name], node) ∈ tree.names) :
    (HostCalls.below tree.names (dir ++ [name])).length < (HostCalls.below tree.names dir).length := by
  have sublist : HostCalls.below tree.names (dir ++ [name]) =
      (HostCalls.below tree.names dir).filter fun entry => HostTree.inside entry.1 (dir ++ [name]) && entry.1 != dir ++ [name] := by
    unfold HostCalls.below
    rw [List.filter_filter]
    refine List.filter_congr fun entry _ => ?_
    by_cases deeper : HostTree.inside entry.1 (dir ++ [name]) = true
    · have prefixed := (HostTree.inside_iff _ _).mp deeper
      have outer : HostTree.inside entry.1 dir = true := (HostTree.inside_iff _ _).mpr ((List.prefix_append _ _).trans prefixed)
      have longer : entry.1 ≠ dir := by
        intro same
        have length := prefixed.length_le
        rw [same, List.length_append, List.length_singleton] at length
        omega
      simp [deeper, outer, longer]
    · simp [deeper]
  rw [sublist]
  refine List.length_filter_lt_length_iff_exists.mpr ⟨(dir ++ [name], node), ?_, by simp⟩
  have inner : HostTree.inside (dir ++ [name]) dir = true := (HostTree.inside_iff _ _).mpr (List.prefix_append _ _)
  simp [HostCalls.below, member, inner]

/-- Whether there is nothing to say of one entry of a directory. -/
def EntryClean (tree : Tree) (root dir : Path) (entry : Path × Node) : Prop :=
  if entry.2.kind = .dir then FilesClean tree root entry.1
  else fileProblems tree root dir (entry.1.getLast?.getD "") entry.2 = []

theorem files_clean_iff {dir : Path} (real : RealDir tree.names dir) :
    FilesClean tree root dir ↔ ∀ entry ∈ HostCalls.children tree.names dir, EntryClean tree root dir entry := by
  constructor
  · rintro ⟨_, clean⟩ ⟨path, node⟩ member
    obtain ⟨name, member, same⟩ := mem_children.mp member
    subst same
    unfold EntryClean
    split
    · rename_i isDirectory
      exact ⟨dir_of_mem member isDirectory, fun inner below => clean inner ((List.prefix_append _ _).trans below)⟩
    · rename_i plain
      simpa using clean dir (List.prefix_refl _) real name node member plain
  · intro clean
    refine ⟨real dir (List.prefix_refl _), ?_⟩
    rintro inner ⟨rest, rfl⟩ realInner name node member plain
    -- an entry of the directory itself, or one below a directory that is an entry
    cases rest with
    | nil =>
        rw [List.append_nil] at member ⊢
        have entry := clean _ (mem_children.mpr ⟨name, member, rfl⟩)
        simpa [EntryClean, plain] using entry
    | cons first rest =>
        have step : dir ++ first :: rest = (dir ++ [first]) ++ rest := by simp
        have opened : isDir tree.names (dir ++ [first]) = true := realInner _ (step ▸ List.prefix_append _ _)
        have present : ∃ node, lookup tree.names (dir ++ [first]) = some node ∧ node.kind = .dir := by
          simpa [isDir, Option.any_eq_true] using opened
        obtain ⟨directory, found, isDirectory⟩ := present
        have entry := clean _ (mem_children.mpr ⟨first, HostTree.mem_of_names_lookup found, rfl⟩)
        rw [EntryClean, if_pos isDirectory] at entry
        exact entry.2 _ (step ▸ List.prefix_append _ _) realInner name node member plain

theorem files_end (fuel : Nat) : ∀ (dir : Path) (report : Report), Located tree.names dir →
    (HostCalls.below tree.names dir).length < fuel →
      ∃ after, checkFiles tree root fuel dir report = some (.ok after) ∧
        (after.problems = [] ↔ report.problems = [] ∧ FilesClean tree root dir) := by
  induction fuel with
  | zero => intro dir report _ few; exact absurd few (Nat.not_lt_zero _)
  | succ fuel ih =>
      intro dir report located few
      unfold checkFiles
      by_cases opened : isDir tree.names dir = true
      · rw [if_pos opened]
        have real := HostTree.located_dir located opened
        rw [files_clean_iff real]
        refine for_each_ends _ report fun entry member report => ?_
        obtain ⟨path, node⟩ := entry
        obtain ⟨name, member, same⟩ := mem_children.mp member
        subst same
        unfold checkEntry EntryClean
        by_cases isDirectory : node.kind = .dir
        · have fewer := below_fewer member
          have inner : RealDir tree.names (dir ++ [name]) := HostTree.real_snoc real (dir_of_mem member isDirectory)
          simpa [isDirectory] using ih (dir ++ [name]) report (.inl inner) (by omega)
        · simp [isDirectory]
      · rw [if_neg opened]
        refine ⟨_, rfl, ?_⟩
        simp [FilesClean, opened]

end Files

/-! More fuel changes nothing. -/
section Fuel

variable {tree : Tree} {root : Path}

theorem for_each_more {Value State : Type} {act again : Value → State → Option (Except Errno State)}
    (more : ∀ value state result, act value state = some result → again value state = some result) :
    ∀ (values : List Value) (state : State) (result : Except Errno State),
      forEach act values state = some result → forEach again values state = some result := by
  intro values
  induction values with
  | nil => intro state result done; exact done
  | cons value rest ih =>
      intro state result done
      unfold forEach at done ⊢
      cases first : act value state with
      | none => simp [first] at done
      | some outcome =>
          rw [more value state outcome first]
          rw [first] at done
          cases outcome with
          | error code => exact done
          | ok next => exact ih next result done

theorem walk_more (fuel : Nat) : ∀ (dir : Path) (label : String) (work : Work Path String) (result : Except Errno (Work Path String)),
    walk tree root fuel dir label work = some result → walk tree root (fuel + 1) dir label work = some result := by
  induction fuel with
  | zero => intro dir label work result done; cases done
  | succ fuel ih =>
      intro dir label work result done
      unfold walk at done ⊢
      cases located : realpath tree.names dir with
      | error code => simpa [located] using done
      | ok real =>
          simp only [located] at done ⊢
          split at done
          · rename_i known
            rw [if_pos known]
            exact done
          · rename_i fresh
            rw [if_neg fresh]
            cases read : readPkg tree dir with
            | error message => simpa [read] using done
            | ok pkg =>
                simp only [read] at done ⊢
                refine for_each_more (fun name work result done => ?_) _ _ _ done
                unfold checkDependency at done ⊢
                split at done
                · cases done
                · exact done
                · split at done
                  · exact done
                  · split at done
                    · rename_i within
                      rw [if_pos within]
                      exact ih _ _ _ _ done
                    · rename_i outside
                      rw [if_neg outside]
                      exact done

theorem files_more (fuel : Nat) : ∀ (dir : Path) (report : Report) (result : Except Errno Report),
    checkFiles tree root fuel dir report = some result → checkFiles tree root (fuel + 1) dir report = some result := by
  induction fuel with
  | zero => intro dir report result done; cases done
  | succ fuel ih =>
      intro dir report result done
      unfold checkFiles at done ⊢
      split at done
      · rename_i opened
        rw [if_pos opened]
        refine for_each_more (fun entry report result done => ?_) _ _ _ done
        unfold checkEntry at done ⊢
        split at done
        · rename_i isDirectory
          rw [if_pos isDirectory]
          exact ih _ _ _ done
        · rename_i plain
          rw [if_neg plain]
          exact done
      · rename_i closed
        rw [if_neg closed]
        exact done

theorem check_more {fuel : Nat} {moduleRoot : Path} {result : Except Errno Report}
    (done : checkTree tree fuel moduleRoot = some result) : checkTree tree (fuel + 1) moduleRoot = some result := by
  unfold checkTree at done ⊢
  cases located : realpath tree.names moduleRoot with
  | error code => simpa [located] using done
  | ok root =>
      simp only [located] at done ⊢
      cases walked : walk tree root fuel root "the module" ⟨[], []⟩ with
      | none => simp [walked] at done
      | some outcome =>
          rw [walk_more fuel _ _ _ _ walked]
          rw [walked] at done
          cases outcome with
          | error code => exact done
          | ok work => exact files_more fuel _ _ _ done

theorem check_enough {least fuel : Nat} {moduleRoot : Path} {result : Except Errno Report}
    (done : checkTree tree least moduleRoot = some result) (enough : least ≤ fuel) :
    checkTree tree fuel moduleRoot = some result := by
  induction enough with
  | refl => exact done
  | step _ ih => exact check_more ih

end Fuel

/-! What a tree without problems is like. -/
section Verdicts

variable {tree : Tree} {root : Path}

theorem clean_links (clean : FilesClean tree root root) {dir : Path} {name : String} {node : Node} {target : HostTree.PathText}
    (there : InTree tree root dir name node) (isLink : node.kind = .link target) {real : Path}
    (located : realpath tree.names (dir ++ [name]) = .ok real) : root <+: real := by
  have silent := clean.2 dir there.below there.real name node (HostTree.mem_of_names_lookup there.found) (by simp [isLink])
  by_cases within : inside root real = true
  · exact inside_below within
  · simp [fileProblems, isLink, located, within] at silent

theorem clean_files (clean : FilesClean tree root root) {dir : Path} {name : String} {node : Node}
    (there : InTree tree root dir name node) (plain : node.kind ≠ .dir) (notLink : ∀ target, node.kind ≠ .link target) :
    ¬ ".node".toList <:+ name.toList ∧ name ≠ "binding.gyp" := by
  have silent := clean.2 dir there.below there.real name node (HostTree.mem_of_names_lookup there.found) plain
  unfold fileProblems at silent
  split at silent
  · rename_i target isLink
    exact absurd isLink (notLink target)
  · simp only [List.append_eq_nil_iff] at silent
    refine ⟨fun addon => ?_, fun gyp => ?_⟩
    · have ends := List.isSuffixOf_iff_suffix.mpr addon
      rw [if_pos ends] at silent
      exact absurd silent.1.1 (by simp)
    · rw [if_pos gyp] at silent
      exact absurd silent.1.2 (by simp)

theorem straight_reached {package : Path} (straight : Straight tree root package) :
    Relation.ReflTransGen (NodeRequires tree) root package := by
  induction straight with
  | root => exact .refl
  | step _ listed _ found ih => exact ih.tail ⟨_, listed, found⟩

theorem straight_checked (clean : Clean tree root) {package : Path} (straight : Straight tree root package) :
    Relation.ReflTransGen (CheckRequires tree root) root package := by
  induction straight with
  | root => exact .refl
  | @step package real name _ listed notStray found ih =>
      obtain ⟨other, isFound⟩ := clean.packages package ih name listed
      have same := node_finds_unique found (check_finds_node isFound notStray).1
      exact ih.tail ⟨name, listed, same ▸ isFound⟩

/-- What is lost is lost beyond a dependency that strays. -/
theorem lost_strays {package : Path} (reached : Relation.ReflTransGen (NodeRequires tree) root package) :
    ∀ name ∈ dependencies tree package, Loses tree root package name →
      Straight tree root package ∨ ∃ other name, Straight tree root other ∧ name ∈ dependencies tree other ∧
        Strays tree root other name ∧ Loses tree root other name := by
  induction reached with
  | refl => exact fun name _ _ => .inl .root
  | @tail package real _ requires ih =>
      intro name listed loses
      obtain ⟨first, isListed, found⟩ := requires
      have before : Loses tree root package first := .later found listed loses
      rcases ih first isListed before with straight | strays
      · by_cases stray : Strays tree root package first
        · exact .inr ⟨package, first, straight, isListed, stray, before⟩
        · exact .inl (.step straight isListed stray found)
      · exact .inr strays

theorem loses_unsound (sound : Sound tree root) {package : Path} {name : String} (loses : Loses tree root package name) :
    Relation.ReflTransGen (NodeRequires tree) root package → name ∉ dependencies tree package := by
  induction loses with
  | here lost => exact fun reached listed => lost (sound.packages _ reached _ listed)
  | later found listed _ ih => exact fun reached isListed => ih (reached.tail ⟨_, isListed, found⟩) listed

/-- In a clean tree nothing is lost unless a dependency strays. -/
theorem sound_iff (clean : Clean tree root) : Sound tree root ↔ ¬ Astray tree root := by
  constructor
  · rintro sound ⟨_, package, name, straight, listed, _, loses⟩
    exact loses_unsound sound loses (straight_reached straight) listed
  · intro notAstray
    refine ⟨?_, fun dir name node target there isLink real located => clean_links clean.files there isLink located,
      fun dir name node there plain notLink => clean_files clean.files there plain notLink⟩
    intro package reached name listed
    by_contra lost
    have loses : Loses tree root package name := .here lost
    have noStray : ¬ ∃ other name, Straight tree root other ∧ name ∈ dependencies tree other ∧
        Strays tree root other name ∧ Loses tree root other name := fun strays => notAstray ⟨clean, strays⟩
    have straight := (lost_strays reached name listed loses).resolve_right noStray
    have notStray : ¬ Strays tree root package name := fun stray => noStray ⟨package, name, straight, listed, stray, loses⟩
    obtain ⟨real, found⟩ := clean.packages package (straight_checked clean straight) name listed
    exact lost ⟨real, check_finds_node found notStray⟩

theorem check_ends {moduleRoot : Path} (there : realpath tree.names moduleRoot = .ok root) :
    ∃ report least, checkTree tree least moduleRoot = some (.ok report) ∧ (report.problems = [] ↔ Clean tree root) := by
  have located := HostEffects.realpath_located there
  have few : (HostCalls.below tree.names root).length ≤ tree.names.length := List.length_filter_le _ _
  have count : (places tree).length = tree.names.length + 1 := by simp [places]
  have enough : (places tree).length < tree.names.length + 2 := by omega
  obtain ⟨work, walked, isClean⟩ := walk_ends located enough
  obtain ⟨report, listed, areClean⟩ :=
    @files_end tree root (tree.names.length + 2) root ⟨work.reports, []⟩ located (by omega)
  refine ⟨report, tree.names.length + 2, ?_, ?_⟩
  · simp [checkTree, there, walked, listed]
  · rw [areClean, isClean]
    exact ⟨fun both => ⟨both.1, both.2⟩, fun clean => ⟨clean.packages, clean.files⟩⟩

/--
The check ends. Where it reports nothing, Node finds all of the module inside the module, unless a
dependency was found in a directory that Node passes over and what Node finds instead is not all there.
-/
theorem check_sound_iff (tree : Tree) (moduleRoot root : Path) (there : realpath tree.names moduleRoot = .ok root) :
    ∃ report least, (∀ fuel, least ≤ fuel → checkTree tree fuel moduleRoot = some (.ok report)) ∧
      ((report.problems = [] → Sound tree root) ↔ ¬ Astray tree root) := by
  obtain ⟨report, least, done, isClean⟩ := check_ends there
  refine ⟨report, least, fun fuel enough => check_enough done enough, ?_⟩
  rw [isClean]
  constructor
  · intro sound astray
    exact (sound_iff astray.clean).mp (sound astray.clean) astray
  · intro notAstray clean
    exact (sound_iff clean).mpr notAstray

/-- A module with `a`, which requires `b`. -/
def needing (names : Names) (distinct : (names.map Prod.fst).Nodup) : Tree where
  names := names
  distinct := distinct
  manifest := fun path =>
    if path = ["m", "package.json"] then .ok ⟨["a"], false, []⟩
    else if path = ["m", "node_modules", "a", "package.json"] then .ok ⟨["b"], false, []⟩
    else .ok ⟨[], false, []⟩
  failure := fun _ => ""

/-- `a` is in place, and `b` in the directory that is given for it. -/
def layout (place : Path) : Names :=
  [(["m"], ⟨1, .dir⟩), (["m", "package.json"], ⟨2, .file⟩), (["m", "node_modules"], ⟨3, .dir⟩),
    (["m", "node_modules", "a"], ⟨4, .dir⟩), (["m", "node_modules", "a", "package.json"], ⟨5, .file⟩),
    (["m", "node_modules", "a", "node_modules"], ⟨6, .dir⟩), (["m", "node_modules", "node_modules"], ⟨7, .dir⟩),
    (place, ⟨8, .dir⟩), (place ++ ["package.json"], ⟨9, .file⟩)]

/-- `b` lies in the `node_modules` of `a`. -/
def nested : Tree := needing (layout ["m", "node_modules", "a", "node_modules", "b"]) (by decide)

theorem nested_straight {package : Path} (straight : Straight nested ["m"] package) :
    package = ["m"] ∨ package = ["m", "node_modules", "a"] ∨ package = ["m", "node_modules", "a", "node_modules", "b"] := by
  induction straight with
  | root => exact .inl rfl
  | step _ listed _ found ih =>
      obtain ⟨candidate, looked, located⟩ := found
      rcases ih with rfl | rfl | rfl
      · obtain rfl := List.mem_singleton.1 (show _ ∈ ["a"] from listed)
        cases (show some ["m", "node_modules", "a"] = some candidate from looked)
        have real : (.ok ["m", "node_modules", "a"] : Except Errno Path) = .ok _ := located
        exact .inr (.inl (Except.ok.inj real).symm)
      · obtain rfl := List.mem_singleton.1 (show _ ∈ ["b"] from listed)
        cases (show some ["m", "node_modules", "a", "node_modules", "b"] = some candidate from looked)
        have real : (.ok ["m", "node_modules", "a", "node_modules", "b"] : Except Errno Path) = .ok _ := located
        exact .inr (.inr (Except.ok.inj real).symm)
      · cases (show _ ∈ ([] : List String) from listed)

theorem nested_not_astray : ¬ Astray nested ["m"] := by
  rintro ⟨_, package, name, straight, listed, ⟨near, isNear, last⟩, _⟩
  rcases nested_straight straight with rfl | rfl | rfl
  · obtain rfl := List.mem_singleton.1 (show _ ∈ ["a"] from listed)
    cases (show some ["m"] = some near from isNear)
    exact absurd last (by decide)
  · obtain rfl := List.mem_singleton.1 (show _ ∈ ["b"] from listed)
    cases (show some ["m", "node_modules", "a"] = some near from isNear)
    exact absurd last (by decide)
  · cases (show _ ∈ ([] : List String) from listed)

theorem nested_package_is_sound :
    realpath nested.names ["m"] = .ok ["m"] ∧
      (∃ report, checkTree nested 12 ["m"] = some (.ok report) ∧ report.problems = []) ∧ Sound nested ["m"] := by
  have checked : checkTree nested 12 ["m"] = some (.ok ⟨[], []⟩) := by rfl
  refine ⟨rfl, ⟨_, checked, rfl⟩, ?_⟩
  obtain ⟨report, least, enough, sound⟩ := check_sound_iff nested ["m"] ["m"] rfl
  have same := (check_enough checked (le_max_right least 12)).symm.trans (enough _ (le_max_left least 12))
  cases same
  exact sound.mpr nested_not_astray rfl

/-- The only `b` lies where Node does not look for it. -/
theorem passed_over_package_accepted :
    let tree := needing (layout ["m", "node_modules", "node_modules", "b"]) (by decide)
    (∃ report, checkTree tree 9 ["m"] = some (.ok report) ∧ report.problems = []) ∧ ¬ Sound tree ["m"] := by
  refine ⟨⟨⟨[], []⟩, by rfl, rfl⟩, ?_⟩
  intro sound
  have reached : NodeRequires (needing (layout ["m", "node_modules", "node_modules", "b"]) (by decide)) ["m"]
      ["m", "node_modules", "a"] := ⟨"a", by decide, ["m", "node_modules", "a"], by decide, by rfl⟩
  obtain ⟨real, ⟨candidate, found, _⟩, _⟩ := sound.packages _ (.single reached) "b" (by decide)
  have absent : nodeLookup (needing (layout ["m", "node_modules", "node_modules", "b"]) (by decide)) "b"
      ["m", "node_modules", "a"] = none := by decide
  rw [absent] at found
  cases found

end Verdicts

end Countinghouse.ModuleTree
