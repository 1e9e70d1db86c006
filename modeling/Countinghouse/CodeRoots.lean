import Mathlib
import Countinghouse.JsonValues
import Countinghouse.PathTexts
import Countinghouse.WorkQueue

/-!
`codeRootsFor` and `dependencyClosure` of lib/fs-broker/identity.js: where countinghouse's own code
and that of its dependencies lies, and which of these places a module must not borrow rights to.

The file system stands still, so that the closure kept in `closures` is the one that would be
computed again. A spelling is a place: a slash behind the name of a dependency is not kept. The
roots to exclude come resolved, as `moduleRootsOf` gives them.
-/

namespace Countinghouse.CodeRoots

open HostTree (Path Names Errno realpath isDir)
open FileNamespace (lexical overlaps)
open JsonValues (memberOrNull)
open ModuleTree (existsSync segOf ups)
open RedisMetering (Json)

/-! The closure. -/
section Closures

structure FileSystem where
  names : Names
  /-- `JSON.parse` of a file's text. -/
  manifest : Path → Option Json

def COUNTINGHOUSE_OWN : List Path := [["lib"], ["package.json"], ["spec", "schema.json"]]

def ownEntries (installDir : Path) : List Path := COUNTINGHOUSE_OWN.map fun entry => installDir ++ entry

/-- `Object.keys(value || {})` -/
def objectKeys : Json → List String
  | .object fields => fields.map Prod.fst
  | .array items => (List.range items.length).map toString
  | .string text => (List.range (FileNamespace.units text).length).map toString
  | _ => []

def DEPENDENCY_KEYS : List String := ["dependencies", "optionalDependencies", "peerDependencies"]

def readDeps (fs : FileSystem) (dir : Path) : List String :=
  match realpath fs.names (dir ++ ["package.json"]) with
  | .error _ => []
  | .ok location =>
      if isDir fs.names location then []
      else
        match fs.manifest location with
        | none => []
        | some pkg => DEPENDENCY_KEYS.flatMap fun k => objectKeys (memberOrNull pkg k)

/-- `Module._nodeModulePaths`, which passes over the directories named node_modules. -/
def nodeModulePaths (dir : Path) : List Path :=
  ((ups dir).filter fun outer => outer.getLast? ≠ some "node_modules").map fun outer => outer ++ ["node_modules"]

/-- `path.join(nm, name)` -/
def packageDir (nm : Path) (name : String) : Path := lexical nm ((PathTexts.split name).map segOf)

def hasPackage (names : Names) (name : String) (nm : Path) : Bool :=
  existsSync names (packageDir nm name ++ ["package.json"])

/-- The loop over the places where a package may be. -/
def findPackage (names : Names) (name : String) (dir : Path) : Option Path :=
  ((nodeModulePaths dir).find? (hasPackage names name)).map fun nm => packageDir nm name

structure Closure where
  roots : List Path
  /-- Looked-up spelling and real path, the one set last in front. -/
  realOf : List (Path × Path)
  deriving DecidableEq

def Closure.add (closure : Closure) (path : Path) : Closure :=
  if closure.roots.contains path then closure else { closure with roots := closure.roots ++ [path] }

def Closure.set (closure : Closure) (dir real : Path) : Closure :=
  if dir ≠ real then { closure with realOf := (dir, real) :: closure.realOf } else closure

/-- A dependency, and the directory it is looked up from. -/
structure Item where
  name : String
  dir : Path
  deriving DecidableEq

def items (fs : FileSystem) (dir : Path) : List Item := (readDeps fs dir).map fun name => ⟨name, dir⟩

abbrev Realpath := Path → Except Errno Path

/-- `none` is a loop that is still running. -/
def closureLoop (fs : FileSystem) (realpath : Realpath) : Nat → List Item → List Path → Closure → Option Closure
  | _, [], _, closure => some closure
  | 0, _ :: _, _, _ => none
  | fuel + 1, item :: queue, seen, closure =>
      match findPackage fs.names item.name item.dir with
      | none => closureLoop fs realpath fuel queue seen closure
      | some dir =>
          match realpath dir with
          | .error _ => closureLoop fs realpath fuel queue seen closure
          | .ok real =>
              let found := (closure.add dir).set dir real
              if seen.contains real then closureLoop fs realpath fuel queue seen found
              else closureLoop fs realpath fuel (queue ++ items fs real) (real :: seen) (found.add real)

def addOwn (realpath : Realpath) (closure : Closure) (path : Path) : Closure :=
  match realpath path with
  | .ok real => closure.add real
  | .error _ => closure

def dependencyClosure (fs : FileSystem) (realpath : Realpath) (fuel : Nat) (installDir : Path) : Option Closure :=
  let own := (ownEntries installDir).foldl (addOwn realpath) ⟨[], []⟩
  closureLoop fs realpath fuel (items fs installDir) [] own

/-- `inside(p, root)`: nothing below the host's root is inside it. -/
def inside (path root : Path) : Bool := ModuleTree.inside root path

/-- The real path of a root to exclude, or the root itself when it has none. -/
def moduleReal (realpath : Realpath) (path : Path) : Path :=
  match realpath path with
  | .ok real => real
  | .error _ => path

/-- A root that is not excluded, in either of its spellings. -/
def kept (closure : Closure) (modules : List Path) (root : Path) : Bool :=
  [root, (closure.realOf.lookup root).getD root].all fun p => !modules.any fun m => inside p m || inside m p

def codeRootsFor (fs : FileSystem) (realpath : Option Realpath) (fuel : Nat) (installDir : Path) (exclude : List Path) :
    Option (List Path) :=
  match realpath with
  | none => some (ownEntries installDir ++ [installDir ++ ["node_modules"]])
  | some realpath =>
      (dependencyClosure fs realpath fuel installDir).map fun closure =>
        closure.roots.filter (kept closure (exclude.map (moduleReal realpath)))

end Closures

/-! What the roots are. -/
section Roots

variable (fs : FileSystem) (installDir : Path)

/-- Node finds the package in the first place that has one, under this name and with this real path. -/
def NodeFinds (dir : Path) (name : String) (candidate real : Path) : Prop :=
  (∃ before nm after, nodeModulePaths dir = before ++ nm :: after ∧ hasPackage fs.names name nm = true ∧
    (∀ other ∈ before, hasPackage fs.names name other = false) ∧ candidate = packageDir nm name) ∧
  realpath fs.names candidate = .ok real

/-- A name is a dependency of countinghouse, or of a package that it needs in turn. -/
inductive Needs : Path → String → Prop where
  | own {name : String} (mem : name ∈ readDeps fs installDir) : Needs installDir name
  | further {dir candidate real : Path} {name next : String} (needs : Needs dir name)
      (found : NodeFinds fs dir name candidate real) (mem : next ∈ readDeps fs real) : Needs real next

inductive CodeRoot : Path → Prop where
  | own {entry root : Path} (mem : entry ∈ ownEntries installDir) (found : realpath fs.names entry = .ok root) : CodeRoot root
  | spelling {dir candidate real : Path} {name : String} (needs : Needs fs installDir dir name)
      (found : NodeFinds fs dir name candidate real) : CodeRoot candidate
  | real {dir candidate real : Path} {name : String} (needs : Needs fs installDir dir name)
      (found : NodeFinds fs dir name candidate real) : CodeRoot real

/-- A root as it is spelled, or its real path. -/
def Spelled (root path : Path) : Prop := path = root ∨ realpath fs.names root = .ok path

variable (exclude : List Path)

/-- One of the two contains the other, or they are the same. -/
def Excluded (root : Path) : Prop :=
  ∃ path, Spelled fs root path ∧ ∃ outer ∈ exclude, overlaps path (moduleReal (realpath fs.names) outer) = true

structure RootsRight : Prop where
  closed : ∃ fuel closure, (∀ more, fuel ≤ more → dependencyClosure fs (realpath fs.names) more installDir = some closure) ∧
    ∀ root, root ∈ closure.roots ↔ CodeRoot fs installDir root
  returned : ∃ fuel roots,
    (∀ more, fuel ≤ more → codeRootsFor fs (some (realpath fs.names)) more installDir exclude = some roots) ∧
    (∀ root ∈ roots, CodeRoot fs installDir root ∧ ¬ Excluded fs exclude root) ∧
    ∀ root, CodeRoot fs installDir root → root ∉ roots → Excluded fs exclude root

/-- The host's root is a spelling of the code root, or the place of an excluded one, and the code
root is related to no excluded one by `inside`. -/
def MeetsHostRoot (root : Path) : Prop :=
  (∃ path, Spelled fs root path ∧ ∃ outer ∈ exclude, path = [] ∨ moduleReal (realpath fs.names) outer = []) ∧
  ∀ path, Spelled fs root path → ∀ outer ∈ exclude,
    inside path (moduleReal (realpath fs.names) outer) = false ∧ inside (moduleReal (realpath fs.names) outer) path = false

end Roots

/-! The loop as a queue that is worked off. -/
section Loop

variable (fs : FileSystem)

def keyOf (item : Item) : Option Path :=
  (findPackage fs.names item.name item.dir).bind fun dir => (realpath fs.names dir).toOption

/-- What the loop notes of an item, whether its package has been seen or not. -/
def record (closure : Closure) (item : Item) : Closure :=
  match findPackage fs.names item.name item.dir with
  | none => closure
  | some dir =>
      match realpath fs.names dir with
      | .error _ => closure
      | .ok real => ((closure.add dir).set dir real).add real

theorem mem_add {closure : Closure} {path root : Path} : root ∈ (closure.add path).roots ↔ root ∈ closure.roots ∨ root = path := by
  unfold Closure.add
  split
  · next already =>
    constructor
    · exact Or.inl
    · rintro (mem | rfl)
      · exact mem
      · exact List.contains_iff_mem.mp already
  · simp

theorem add_of_mem {closure : Closure} {path : Path} (mem : path ∈ closure.roots) : closure.add path = closure := by
  simp [Closure.add, mem]

theorem set_roots (closure : Closure) (dir real : Path) : (closure.set dir real).roots = closure.roots := by
  unfold Closure.set
  split <;> rfl

theorem loop_popped {fuel : Nat} {queue : List Item} {seen : List Path} {closure : Closure} (known : seen ⊆ closure.roots) :
    closureLoop fs (realpath fs.names) fuel queue seen closure =
      (WorkQueue.popped (keyOf fs) (items fs) fuel queue seen).map fun all => all.foldl (record fs) closure := by
  induction fuel generalizing queue seen closure with
  | zero =>
      cases queue with
      | nil => simp [closureLoop, WorkQueue.popped_nil]
      | cons item queue => simp [closureLoop, WorkQueue.popped]
  | succ fuel ih =>
      cases queue with
      | nil => simp [closureLoop, WorkQueue.popped_nil]
      | cons item queue =>
          rw [WorkQueue.popped_cons]
          unfold closureLoop
          cases isFound : findPackage fs.names item.name item.dir with
          | none =>
              have isKey : keyOf fs item = none := by simp [keyOf, isFound]
              have noted : record fs closure item = closure := by simp [record, isFound]
              simp only [WorkQueue.queueAfter, isKey, ih known, Option.map_map, Function.comp_def, List.foldl_cons, noted]
          | some dir =>
              cases isReal : realpath fs.names dir with
              | error code =>
                  have isKey : keyOf fs item = none := by simp [keyOf, isFound, isReal, Except.toOption]
                  have noted : record fs closure item = closure := by simp [record, isFound, isReal]
                  simp only [WorkQueue.queueAfter, isKey, isReal, ih known, Option.map_map, Function.comp_def, List.foldl_cons, noted]
              | ok real =>
                  have isKey : keyOf fs item = some real := by simp [keyOf, isFound, isReal, Except.toOption]
                  have noted : record fs closure item = ((closure.add dir).set dir real).add real := by
                    simp [record, isFound, isReal]
                  have still : seen ⊆ ((closure.add dir).set dir real).roots := by
                    intro path mem
                    rw [set_roots]
                    exact mem_add.mpr (Or.inl (known mem))
                  by_cases isSeen : real ∈ seen
                  · -- a package seen before is a root already
                    rw [add_of_mem (still isSeen)] at noted
                    simp only [WorkQueue.queueAfter, isKey, isReal, List.contains_iff_mem, isSeen, if_true, ih still, Option.map_map, Function.comp_def,
                      List.foldl_cons, noted]
                  · have more : real :: seen ⊆ (((closure.add dir).set dir real).add real).roots := by
                      intro path mem
                      rcases List.mem_cons.mp mem with rfl | mem
                      · exact mem_add.mpr (Or.inr rfl)
                      · exact mem_add.mpr (Or.inl (still mem))
                    simp only [WorkQueue.queueAfter, isKey, isReal, List.contains_iff_mem, isSeen, if_false, ih more, Option.map_map, Function.comp_def,
                      List.foldl_cons, noted]

/-- The package of an item, under the name it is looked up by and under its real path. -/
def LooksUp (item : Item) (dir real : Path) : Prop :=
  findPackage fs.names item.name item.dir = some dir ∧ realpath fs.names dir = .ok real

theorem mem_recorded {all : List Item} {closure : Closure} {root : Path} :
    root ∈ (all.foldl (record fs) closure).roots ↔
      root ∈ closure.roots ∨ ∃ item ∈ all, ∃ dir real, LooksUp fs item dir real ∧ (root = dir ∨ root = real) := by
  induction all generalizing closure with
  | nil => simp
  | cons item all ih =>
      have here : root ∈ (record fs closure item).roots ↔
          root ∈ closure.roots ∨ ∃ dir real, LooksUp fs item dir real ∧ (root = dir ∨ root = real) := by
        unfold record LooksUp
        cases isFound : findPackage fs.names item.name item.dir with
        | none => simp
        | some dir =>
            cases isReal : realpath fs.names dir with
            | error code => simp [isReal]
            | ok real => simp [isReal, mem_add, set_roots, or_assoc]
      rw [List.foldl_cons, ih, here]
      simp [or_assoc]

/-- Every root has its real path noted where the two differ. -/
structure Spells (names : Names) (closure : Closure) : Prop where
  roots : ∀ root ∈ closure.roots, realpath names root = .ok ((closure.realOf.lookup root).getD root)
  realOf : ∀ dir real, closure.realOf.lookup dir = some real → realpath names dir = .ok real

/-- A noted real path is the real path. -/
theorem noted_real {names : Names} {closure : Closure} (spells : Spells names closure) {path real : Path}
    (isReal : realpath names path = .ok real) : closure.realOf.lookup path = none ∨ closure.realOf.lookup path = some real := by
  cases noted : closure.realOf.lookup path with
  | none => exact Or.inl rfl
  | some other =>
      have same := isReal.symm.trans (spells.realOf path other noted)
      cases same
      exact Or.inr rfl

theorem spells_add_real {names : Names} {closure : Closure} (spells : Spells names closure) {path real : Path}
    (isReal : realpath names path = .ok real) : Spells names (closure.add real) := by
  have itself := HostEffects.located_realpath (HostEffects.realpath_located isReal)
  have same : (closure.add real).realOf = closure.realOf := by
    unfold Closure.add
    split <;> rfl
  refine ⟨?_, by rw [same]; exact spells.realOf⟩
  intro root mem
  rw [same]
  rcases mem_add.mp mem with old | rfl
  · exact spells.roots root old
  · rcases noted_real spells itself with noted | noted <;> simp [noted, itself]

theorem spells_set {names : Names} {closure : Closure} (spells : Spells names closure) {dir real : Path}
    (isReal : realpath names dir = .ok real) : Spells names ((closure.add dir).set dir real) := by
  have added : (closure.add dir).realOf = closure.realOf := by
    unfold Closure.add
    split <;> rfl
  by_cases differ : dir = real
  · have unset : (closure.add dir).set dir real = closure.add real := by simp [Closure.set, differ]
    rw [unset]
    exact spells_add_real spells isReal
  · have noted (root : Path) : ((closure.add dir).set dir real).realOf.lookup root =
        if root = dir then some real else closure.realOf.lookup root := by
      by_cases same : root = dir
      · simp [Closure.set, differ, same]
      · have other : (root == dir) = false := by simpa using same
        simp [Closure.set, differ, added, List.lookup_cons, other, same]
    refine ⟨?_, ?_⟩
    · intro root mem
      rw [noted]
      by_cases same : root = dir
      · simp [same, isReal]
      · rw [if_neg same]
        rw [set_roots] at mem
        exact spells.roots root ((mem_add.mp mem).resolve_right same)
    · intro path other isNoted
      rw [noted] at isNoted
      by_cases same : path = dir
      · rw [if_pos same] at isNoted
        cases isNoted
        rw [same, isReal]
      · rw [if_neg same] at isNoted
        exact spells.realOf path other isNoted

theorem record_spells {closure : Closure} (spells : Spells fs.names closure) (item : Item) :
    Spells fs.names (record fs closure item) := by
  unfold record
  cases findPackage fs.names item.name item.dir with
  | none => exact spells
  | some dir =>
      simp only
      cases isReal : realpath fs.names dir with
      | error code => exact spells
      | ok real => exact spells_add_real (spells_set spells isReal) isReal

theorem recorded_spells {all : List Item} {closure : Closure} (spells : Spells fs.names closure) :
    Spells fs.names (all.foldl (record fs) closure) := by
  induction all generalizing closure with
  | nil => exact spells
  | cons item all ih => exact ih (record_spells fs spells item)

end Loop

/-! The closure that is found. -/
section Exact

variable {fs : FileSystem} {installDir : Path}

theorem own_spells (entries : List Path) {closure : Closure} (spells : Spells fs.names closure) :
    Spells fs.names (entries.foldl (addOwn (realpath fs.names)) closure) := by
  induction entries generalizing closure with
  | nil => exact spells
  | cons entry entries ih =>
      refine ih ?_
      unfold addOwn
      cases isReal : realpath fs.names entry with
      | error code => exact spells
      | ok real => exact spells_add_real spells isReal

theorem mem_own {entries : List Path} {closure : Closure} {root : Path} :
    root ∈ (entries.foldl (addOwn (realpath fs.names)) closure).roots ↔
      root ∈ closure.roots ∨ ∃ entry ∈ entries, realpath fs.names entry = .ok root := by
  induction entries generalizing closure with
  | nil => simp
  | cons entry entries ih =>
      have here : root ∈ (addOwn (realpath fs.names) closure entry).roots ↔
          root ∈ closure.roots ∨ realpath fs.names entry = .ok root := by
        unfold addOwn
        cases isReal : realpath fs.names entry with
        | error code => simp
        | ok real => simp [mem_add, eq_comm]
      rw [List.foldl_cons, ih, here]
      simp [or_assoc]

theorem find_package_iff {names : Names} {name : String} {dir candidate : Path} :
    findPackage names name dir = some candidate ↔
      ∃ before nm after, nodeModulePaths dir = before ++ nm :: after ∧ hasPackage names name nm = true ∧
        (∀ other ∈ before, hasPackage names name other = false) ∧ candidate = packageDir nm name := by
  simp only [findPackage, Option.map_eq_some_iff, List.find?_eq_some_iff_append]
  constructor
  · rintro ⟨nm, ⟨has, before, after, isPaths, none⟩, rfl⟩
    exact ⟨before, nm, after, isPaths, has, by simpa using none, rfl⟩
  · rintro ⟨before, nm, after, isPaths, has, none, rfl⟩
    exact ⟨nm, ⟨has, before, after, isPaths, by simpa using none⟩, rfl⟩

theorem finds_iff {item : Item} {dir real : Path} :
    LooksUp fs item dir real ↔ NodeFinds fs item.dir item.name dir real := by
  unfold LooksUp NodeFinds
  rw [find_package_iff]

theorem keyOf_iff {item : Item} {real : Path} : keyOf fs item = some real ↔ ∃ dir, LooksUp fs item dir real := by
  unfold keyOf LooksUp
  simp only [Option.bind_eq_some_iff]
  refine exists_congr fun dir => and_congr_right fun _ => ?_
  cases realpath fs.names dir <;> simp [Except.toOption]

theorem mem_items {dir : Path} {item : Item} : item ∈ items fs dir ↔ item.dir = dir ∧ item.name ∈ readDeps fs dir := by
  obtain ⟨name, place⟩ := item
  simp [items, and_comm, eq_comm]

/-- The queue holds what is needed. -/
theorem reached_iff {item : Item} :
    WorkQueue.Reached (keyOf fs) (items fs) (items fs installDir) item ↔ Needs fs installDir item.dir item.name := by
  constructor
  · intro reached
    induction reached with
    | start mem =>
        obtain ⟨isDir, mem⟩ := mem_items.mp mem
        rw [isDir]
        exact Needs.own mem
    | expand _ isKey mem ih =>
        obtain ⟨isDir, mem⟩ := mem_items.mp mem
        obtain ⟨dir, found⟩ := keyOf_iff.mp isKey
        rw [isDir]
        exact Needs.further ih (finds_iff.mp found) mem
  · intro needs
    obtain ⟨name, dir⟩ := item
    simp only at needs
    induction needs with
    | own mem => exact .start (mem_items.mpr ⟨rfl, mem⟩)
    | @further dir candidate real name next _ found mem ih =>
        have located : LooksUp fs ⟨name, dir⟩ candidate real := finds_iff.mpr found
        exact .expand ih (keyOf_iff.mpr ⟨candidate, located⟩) (mem_items.mpr ⟨rfl, mem⟩)

theorem key_among (item : Item) (real : Path) (isKey : keyOf fs item = some real) :
    real ∈ [] :: fs.names.map Prod.fst := by
  obtain ⟨dir, found⟩ := keyOf_iff.mp isKey
  exact HostTree.located_among (HostEffects.realpath_located found.2)

/-- The loop ends, with the own entries that are there and both spellings of every package needed. -/
theorem closure_exact (fs : FileSystem) (installDir : Path) :
    ∃ fuel closure, (∀ more, fuel ≤ more → dependencyClosure fs (realpath fs.names) more installDir = some closure) ∧
      (∀ root, root ∈ closure.roots ↔ CodeRoot fs installDir root) ∧ Spells fs.names closure := by
  obtain ⟨fuel, all, done⟩ : ∃ fuel all, WorkQueue.popped (keyOf fs) (items fs) fuel (items fs installDir) [] = some all :=
    ⟨_, WorkQueue.popped_total key_among (Nat.le_refl _)⟩
  let own := (ownEntries installDir).foldl (addOwn (realpath fs.names)) ⟨[], []⟩
  have spells : Spells fs.names own := own_spells _ ⟨by simp, by simp⟩
  refine ⟨fuel, all.foldl (record fs) own, ?_, ?_, recorded_spells fs spells⟩
  · intro more le
    rw [dependencyClosure, loop_popped fs (List.nil_subset _), WorkQueue.popped_more le done, Option.map_some]
  · intro root
    rw [mem_recorded, mem_own]
    constructor
    · rintro ((none | ⟨entry, mem, found⟩) | ⟨item, mem, dir, real, found, isRoot⟩)
      · cases none
      · exact CodeRoot.own mem found
      · have needs := reached_iff.mp ((WorkQueue.mem_popped done item).mp mem)
        rcases isRoot with rfl | rfl
        · exact CodeRoot.spelling needs (finds_iff.mp found)
        · exact CodeRoot.real needs (finds_iff.mp found)
    · intro isRoot
      cases isRoot with
      | own mem found => exact Or.inl (Or.inr ⟨_, mem, found⟩)
      | @spelling dir candidate real name needs found =>
          have popped := (WorkQueue.mem_popped done ⟨name, dir⟩).mpr (reached_iff.mpr needs)
          exact Or.inr ⟨_, popped, root, real, finds_iff.mpr found, Or.inl rfl⟩
      | @real dir candidate _ name needs found =>
          have popped := (WorkQueue.mem_popped done ⟨name, dir⟩).mpr (reached_iff.mpr needs)
          exact Or.inr ⟨_, popped, candidate, root, finds_iff.mpr found, Or.inr rfl⟩

end Exact

/-! Exclusions. -/
section Exclusions

variable {fs : FileSystem} {exclude : List Path}

theorem inside_overlaps {path outer : Path} (within : inside path outer = true) : overlaps path outer = true := by
  have below := (HostTree.inside_iff path outer).mpr (ModuleTree.inside_below within)
  simp [overlaps, below]

/-- Away from the host's root, `inside` misses nothing. -/
theorem overlaps_inside {path outer : Path} (proper : path ≠ []) (outerProper : outer ≠ [])
    (both : overlaps path outer = true) : inside path outer = true ∨ inside outer path = true := by
  rw [overlaps, Bool.or_eq_true] at both
  rcases both with within | within
  · exact Or.inl (by simp [inside, ModuleTree.inside, outerProper, within])
  · exact Or.inr (by simp [inside, ModuleTree.inside, proper, within])

theorem overlaps_root {path outer : Path} (root : path = [] ∨ outer = []) : overlaps path outer = true := by
  rcases root with rfl | rfl <;> simp [overlaps, HostTree.inside]

theorem kept_iff {closure : Closure} (spells : Spells fs.names closure) {root : Path} (mem : root ∈ closure.roots) :
    kept closure (exclude.map (moduleReal (realpath fs.names))) root = true ↔
      ∀ path, Spelled fs root path → ∀ outer ∈ exclude, inside path (moduleReal (realpath fs.names) outer) = false ∧
        inside (moduleReal (realpath fs.names) outer) path = false := by
  have isReal := spells.roots root mem
  have spelled (path : Path) : Spelled fs root path ↔ path ∈ [root, (closure.realOf.lookup root).getD root] := by
    simp [Spelled, isReal, eq_comm]
  unfold kept
  rw [List.all_eq_true]
  refine forall_congr' fun path => ?_
  rw [spelled]
  refine imp_congr_right fun _ => ?_
  simp

end Exclusions

/-- The roots are as they should be exactly when none of them meets the host's root unrelated. -/
theorem roots_right_iff (fs : FileSystem) (installDir : Path) (exclude : List Path) :
    RootsRight fs installDir exclude ↔ ∀ root, CodeRoot fs installDir root → ¬ MeetsHostRoot fs exclude root := by
  obtain ⟨fuel, closure, ends, isRoot, spells⟩ := closure_exact fs installDir
  have returns (more : Nat) (le : fuel ≤ more) : codeRootsFor fs (some (realpath fs.names)) more installDir exclude =
      some (closure.roots.filter (kept closure (exclude.map (moduleReal (realpath fs.names))))) := by
    simp [codeRootsFor, ends more le]
  constructor
  · rintro ⟨_, enough, roots, returned, apart, _⟩ root isCode ⟨⟨path, spelled, outer, mem, atRoot⟩, unrelated⟩
    have same := (returned (max fuel enough) (by omega)).symm.trans (returns (max fuel enough) (by omega))
    have kept : root ∈ roots := by
      rw [Option.some.inj same]
      exact List.mem_filter.mpr ⟨(isRoot root).mpr isCode, (kept_iff spells ((isRoot root).mpr isCode)).mpr unrelated⟩
    exact (apart root kept).2 ⟨path, spelled, outer, mem, overlaps_root atRoot⟩
  · intro proper
    refine ⟨⟨fuel, closure, ends, isRoot⟩, ⟨fuel, _, returns, ?_, ?_⟩⟩
    · intro root mem
      obtain ⟨mem, isKept⟩ := List.mem_filter.mp mem
      have isCode := (isRoot root).mp mem
      have unrelated := (kept_iff spells mem).mp isKept
      refine ⟨isCode, ?_⟩
      rintro ⟨path, spelled, outer, among, both⟩
      have away := not_or.mp fun atRoot => proper root isCode ⟨⟨path, spelled, outer, among, atRoot⟩, unrelated⟩
      have apart := unrelated path spelled outer among
      rcases overlaps_inside away.1 away.2 both with within | within
      · exact absurd within (by simp [apart.1])
      · exact absurd within (by simp [apart.2])
    · intro root isCode dropped
      by_contra apart
      have mem := (isRoot root).mpr isCode
      refine dropped (List.mem_filter.mpr ⟨mem, (kept_iff spells mem).mpr ?_⟩)
      intro path spelled outer among
      constructor <;> by_contra within <;> refine apart ⟨path, spelled, outer, among, ?_⟩
      · exact inside_overlaps (by simpa using within)
      · have both := inside_overlaps (by simpa using within)
        simpa [overlaps, or_comm] using both

/-- countinghouse in /ch, without package.json. -/
def bare : FileSystem := ⟨[(["ch"], ⟨1, .dir⟩), (["ch", "lib"], ⟨2, .dir⟩)], fun _ => none⟩

/-- The module to exclude is the host's root, and /ch/lib lies in it. -/
theorem module_at_host_root : ¬ RootsRight bare ["ch"] [[]] := by
  rintro ⟨-, fuel, roots, returned, apart, -⟩
  have isRoots : codeRootsFor bare (some (realpath bare.names)) fuel ["ch"] [[]] = some [["ch", "lib"]] := by
    cases fuel <;> rfl
  have same := (returned fuel (Nat.le_refl _)).symm.trans isRoots
  cases same
  exact (apart ["ch", "lib"] (by simp)).2 ⟨["ch", "lib"], Or.inl rfl, [], by simp, by decide⟩

end Countinghouse.CodeRoots
