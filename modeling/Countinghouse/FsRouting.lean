import Mathlib
import Countinghouse.HeldItems
import Countinghouse.PackageLookups

/-!
Which calls of the patched `fs` a module worker's original `fs` serves: the grants and the routing of
lib/fs-broker/patch.js. The loader opens grants and closes them, in any order, around what Node and the
hooks of lib/fs-broker/identity.js read; module code can call at any time. `process.cwd()`
and `fileURLToPath` are given; descriptors are integers. The check reads an argument and the original
reads it again: here it reads the same both times.
-/

namespace Countinghouse.FsRouting

open HeldItems
open LoaderHooks (InTree Named)
open NamespacePaths (joined)
open ThreadFacade (Text insideRoot isAbsolute)

/-! The grants. -/
section Model

/-- The lists of `grants`. -/
inductive GrantKind where
  | roots
  | files
  | bootRoots
  deriving DecidableEq

inductive Obj where
  | fs
  | fsp
  deriving DecidableEq

inductive Arg (Value : Type) where
  | text (t : Text)
  | url (isFile : Bool) (href : Text)
  | number (n : Int)
  /-- null, or undefined -/
  | null
  | other (v : Value)

structure Host (Value : Type) where
  cwd : HostTree.Path
  plain : ∀ name ∈ cwd, PathTexts.Plain name
  /-- Nothing where it throws. -/
  fileURLToPath : Text → Option Text
  /-- `String(v)` -/
  shown : Arg Value → Text

variable {Value : Type} (host : Host Value)

def filePrefix : Text := ['f', 'i', 'l', 'e', ':']

/-- `path.resolve(String(x))` -/
def resolve (t : Text) : Text := (PathTexts.resolve host.cwd (String.ofList t)).toList

def absolutely (s : Text) : Option Text := if isAbsolute s then some (resolve host s) else none

def absoluteText (s : Text) : Option Text :=
  if filePrefix.isPrefixOf s then (host.fileURLToPath s).bind (absolutely host) else absolutely host s

/-- `absolutePath`: nothing where it throws, and inside of that null. -/
def absolutePath : Arg Value → Option (Option Text)
  | .text t => some (absoluteText host t)
  | .url true href => (host.fileURLToPath href).map (absoluteText host)
  | _ => some none

def STAT_KEYS : List String := ["realpathSync", "statSync", "lstatSync", "existsSync"]
def READ_KEYS : List String := ["readFileSync", "openSync"]
def BOOT_KEYS : List String := STAT_KEYS ++ READ_KEYS ++ ["readdirSync"]

def under (s : Text) (roots : List Text) : Bool := roots.any fun r => insideRoot s r

/-- `granted`: nothing where it throws. -/
def granted (grants : GrantKind → List Text) (obj : Obj) (key : String) (v : Arg Value) : Option Bool :=
  if obj ≠ .fs ∨ key ∉ BOOT_KEYS then some false
  else if grants .roots = [] ∧ grants .files = [] ∧ grants .bootRoots = [] then some false
  else (absolutePath host v).map fun
    | none => false
    | some s =>
        under s (grants .bootRoots) ||
          if key ∈ STAT_KEYS then under s (grants .roots) else decide (key ∈ READ_KEYS) && (grants .files).contains s

structure Route where
  paths : List Nat := []
  fd : Option Nat := none
  deriving DecidableEq

def P0 : Route := { paths := [0] }
def P01 : Route := { paths := [0, 1] }
def P1 : Route := { paths := [1] }
def F0 : Route := { fd := some 0 }
/-- `lock` without a route -/
def unrouted : Route := {}
def FILE : Route := { paths := [0], fd := some 0 }

/-- `define`: the names of the three forms of an operation. -/
def define (name : String) (route : Route) (promise : Bool) : List (Obj × String × Route) :=
  [(Obj.fs, name ++ "Sync", route), (Obj.fs, name, route)] ++ if promise then [(Obj.fsp, name, route)] else []

/-- What `install` locks, with the route of each. -/
def locked : List (Obj × String × Route) :=
  (["access", "stat", "lstat", "statfs", "realpath", "readlink", "readdir", "mkdir", "mkdtemp", "rmdir", "rm", "unlink",
    "chmod", "chown", "lchown", "utimes", "lutimes"].flatMap fun name => define name P0 true) ++
  (["rename", "copyFile", "link"].flatMap fun name => define name P01 true) ++ define "symlink" P1 true ++
  define "truncate" FILE true ++ define "open" P0 false ++
  (["fstat", "close", "fsync", "fdatasync", "ftruncate", "fchmod", "fchown", "futimes"].flatMap
    fun name => define name F0 false) ++
  [(Obj.fs, "existsSync", P0), (Obj.fs, "exists", P0)] ++
  (["readSync", "read", "writeSync", "write", "writevSync", "writev", "readvSync", "readv"].map
    fun name => (Obj.fs, name, F0)) ++
  (["readFile", "writeFile", "appendFile"].flatMap fun name =>
    [(Obj.fs, name ++ "Sync", FILE), (Obj.fs, name, FILE), (Obj.fsp, name, P0)]) ++
  [(Obj.fsp, "open", P0), (Obj.fs, "opendirSync", P0), (Obj.fs, "opendir", P0), (Obj.fsp, "opendir", P0),
    (Obj.fs, "cpSync", P01), (Obj.fs, "cp", P01), (Obj.fsp, "cp", P01), (Obj.fs, "globSync", unrouted),
    (Obj.fs, "glob", unrouted), (Obj.fsp, "glob", unrouted), (Obj.fs, "openAsBlob", P0),
    (Obj.fs, "mkdtempDisposableSync", P0), (Obj.fsp, "mkdtempDisposable", P0), (Obj.fs, "watch", unrouted),
    (Obj.fs, "watchFile", unrouted), (Obj.fs, "unwatchFile", unrouted), (Obj.fsp, "watch", unrouted),
    (Obj.fs, "Utf8Stream", unrouted), (Obj.fsp, "lchmod", unrouted)]

def routeOf (obj : Obj) (key : String) : Option Route :=
  (locked.find? fun entry => entry.1 = obj ∧ entry.2.1 = key).map fun entry => entry.2.2

/-- The entries of the table that grants and descriptors depend on. -/
structure RoutesKnown : Prop where
  boot : ∀ key ∈ BOOT_KEYS, (routeOf .fs key).map Route.paths = some [0]
  openSync : routeOf .fs "openSync" = some P0 ∧ routeOf .fsp "openSync" = none
  openAsync : routeOf .fs "open" = some P0 ∧ routeOf .fsp "open" = some P0
  closeSync : routeOf .fs "closeSync" = some F0 ∧ routeOf .fsp "closeSync" = none
  closeAsync : routeOf .fs "close" = some F0 ∧ routeOf .fsp "close" = none

theorem routes_known : RoutesKnown := by
  have all : (∀ key ∈ BOOT_KEYS, (routeOf .fs key).map Route.paths = some [0]) ∧
      (routeOf .fs "openSync" = some P0 ∧ routeOf .fsp "openSync" = none) ∧
      (routeOf .fs "open" = some P0 ∧ routeOf .fsp "open" = some P0) ∧
      (routeOf .fs "closeSync" = some F0 ∧ routeOf .fsp "closeSync" = none) ∧
      routeOf .fs "close" = some F0 ∧ routeOf .fsp "close" = none := by decide +kernel
  exact ⟨all.1, all.2.1, all.2.2.1, all.2.2.2.1, all.2.2.2.2⟩

def argAt (args : List (Arg Value)) (i : Nat) : Arg Value := (args[i]?).getD .null

/-- `a[i] != null && typeof(a[i]) !== 'number' && granted(obj, key, a[i])` -/
def pathGranted (grants : GrantKind → List Text) (obj : Obj) (key : String) (v : Arg Value) : Option Bool :=
  match v with
  | .null => some false
  | .number _ => some false
  | v => granted host grants obj key v

/-- Whether every path argument is granted; nothing where that throws. -/
def everyGranted (grants : GrantKind → List Text) (obj : Obj) (key : String) (args : List (Arg Value)) :
    List Nat → Option Bool
  | [] => some true
  | i :: rest => (pathGranted host grants obj key (argAt args i)).bind fun found =>
      if found then everyGranted grants obj key args rest else some false

structure Patched where
  grants : Lists GrantKind Text
  realFds : List Int := []
  bootOutside : List Text := []
  bootDropped : Nat := 0

inductive Served where
  | original
  | bootRefusal
  | broker
  | thrown
  deriving DecidableEq

/-- `typeof(a[i]) === 'number' && realFds.has(a[i])` -/
def isReal (realFds : List Int) : Arg Value → Bool
  | .number n => realFds.contains n
  | _ => false

/-- `routed` -/
def served (s : Patched) (obj : Obj) (key : String) (route : Route) (args : List (Arg Value)) : Served :=
  if route.fd.any fun i => isReal s.realFds (argAt args i) then .original
  else if route.paths = [] then .broker
  else
    match everyGranted host s.grants.list obj key args route.paths with
    | none => .thrown
    | some true => .original
    | some false => if s.grants.list .bootRoots = [] then .broker else .bootRefusal

/-- `realFds.add(fd)` -/
def addFd (realFds : List Int) (fd : Int) : List Int := if fd ∈ realFds then realFds else realFds ++ [fd]

/-- `realFds.delete(v)` -/
def deleteFd (realFds : List Int) : Arg Value → List Int
  | .number n => realFds.filter fun fd => fd ≠ n
  | _ => realFds

/-- `callOrig`, with the descriptor that the original gives, if it gives one. -/
def callOrig (s : Patched) (key : String) (args : List (Arg Value)) (fd : Option Int) : Patched :=
  if key = "openSync" ∨ key = "open" then
    match fd with
    | none => s
    | some fd => { s with realFds := addFd s.realFds fd }
  else if key = "closeSync" ∨ key = "close" then { s with realFds := deleteFd s.realFds (argAt args 0) }
  else s

/-- What `bootRefusal` keeps for the log. -/
def refuse (s : Patched) (route : Route) (args : List (Arg Value)) : Patched :=
  match absolutePath host (argAt args (route.paths.headD 0)) with
  | none => s
  | some path =>
      let shown := path.getD (host.shown (argAt args (route.paths.headD 0)))
      if shown ∈ s.bootOutside then s
      else if s.bootOutside.length < 20 then { s with bootOutside := s.bootOutside ++ [shown] }
      else { s with bootDropped := s.bootDropped + 1 }

inductive Event (Value : Type) where
  /-- `resolving`, `reading` and `boot` of the controller -/
  | grant (kind : GrantKind) (paths : List Text)
  /-- The function that a grant has returned is called. -/
  | release (n : Nat)
  | call (obj : Obj) (key : String) (args : List (Arg Value)) (fd : Option Int)
  /-- `originals.readFileSync`, with the descriptor that it reads through. -/
  | readOriginal (fd : Int)

def step (s : Patched) : Event Value → Patched
  | .grant kind paths => { s with grants := move s.grants (.take ⟨kind, paths.map (resolve host)⟩) }
  | .release n => { s with grants := move s.grants (.giveBack n) }
  | .call obj key args fd =>
      match routeOf obj key with
      | none => s
      | some route =>
          match served host s obj key route args with
          | .original => callOrig s key args fd
          | .bootRefusal => refuse host s route args
          | _ => s
  | .readOriginal fd => { s with realFds := deleteFd (addFd s.realFds fd) (.number fd : Arg Value) }

def run (events : List (Event Value)) : Patched := events.foldl (step host) { grants := fresh }

end Model

/-! What the original serves. -/
section Grants

variable {Value : Type} {host : Host Value}

/-- What the events do to the grants. -/
def moves (host : Host Value) (events : List (Event Value)) : List (Move GrantKind Text) :=
  events.filterMap fun
    | .grant kind paths => some (.take ⟨kind, paths.map (resolve host)⟩)
    | .release n => some (.giveBack n)
    | _ => none

/-- A grant of the kind is open that was given for the path. -/
def Open (host : Host Value) (events : List (Event Value)) (kind : GrantKind) (path : Text) : Prop :=
  ∃ n ticket, Out (moves host events) n ticket ∧ ticket.kind = kind ∧ path ∈ ticket.items

/-- An open grant covers a call for a path: anything of the boot, a look under the roots of a lookup, or a read of
the very file that is loaded. -/
def Covered (host : Host Value) (events : List (Event Value)) (key : String) (path : Text) : Prop :=
  (∃ root, Open host events .bootRoots root ∧ insideRoot path root = true) ∨
  (key ∈ STAT_KEYS ∧ ∃ root, Open host events .roots root ∧ insideRoot path root = true) ∨
  (key ∈ READ_KEYS ∧ Open host events .files path)

/-- The absolute path that an argument stands for, if it stands for one. -/
def pathOf (host : Host Value) (v : Arg Value) : Option Text := (absolutePath host v).join

theorem run_snoc (events : List (Event Value)) (event : Event Value) :
    run host (events ++ [event]) = step host (run host events) event := by
  simp [run]

theorem step_grants (s : Patched) (event : Event Value) :
    (step host s event).grants = (moves host [event]).foldl move s.grants := by
  cases event with
  | grant kind paths => rfl
  | release n => rfl
  | call obj key args fd =>
      have kept : ∀ fd, (callOrig s key args fd).grants = s.grants := by
        intro fd
        unfold callOrig
        split
        · cases fd <;> rfl
        · split <;> rfl
      have refused : ∀ route, (refuse host s route args).grants = s.grants := by
        intro route
        unfold refuse
        split
        · rfl
        · dsimp only
          split
          · rfl
          · split <;> rfl
      simp only [step, moves, List.filterMap_cons, List.filterMap_nil, List.foldl_nil]
      split
      · rfl
      · split
        · exact kept fd
        · exact refused _
        · rfl
  | readOriginal fd => rfl

/-- The lists of grants are what the opens and releases make of them, whatever else is called. -/
theorem grants_run (events : List (Event Value)) : (run host events).grants = moveAll (moves host events) := by
  induction events using List.reverseRecOn with
  | nil => rfl
  | append_singleton before event ih =>
      have parts : moves host (before ++ [event]) = moves host before ++ moves host [event] := List.filterMap_append
      rw [run_snoc, step_grants, ih, parts, moveAll, moveAll, List.foldl_append]

variable {events : List (Event Value)} (orderly : Orderly (moves host events))
include orderly

theorem mem_grants (kind : GrantKind) (path : Text) :
    path ∈ (run host events).grants.list kind ↔ Open host events kind path := by
  rw [grants_run]
  exact mem_list orderly kind path

theorem under_iff (kind : GrantKind) (path : Text) : under path ((run host events).grants.list kind) = true ↔
    ∃ root, Open host events kind root ∧ insideRoot path root = true := by
  simp [under, List.any_eq_true, mem_grants orderly]

theorem granted_iff (obj : Obj) (key : String) (v : Arg Value) :
    granted host (run host events).grants.list obj key v = some true ↔
      obj = .fs ∧ key ∈ BOOT_KEYS ∧ ∃ path, pathOf host v = some path ∧ Covered host events key path := by
  have apart : ∀ key ∈ STAT_KEYS, key ∉ READ_KEYS := by decide
  unfold granted
  split
  · rename_i never
    constructor
    · intro found
      cases found
    · rintro ⟨isFs, isKey, -⟩
      exact absurd never (by simp [isFs, isKey])
  · rename_i may
    obtain ⟨isFs, isKey⟩ : obj = .fs ∧ key ∈ BOOT_KEYS := by simpa [not_or] using may
    split
    · rename_i nothing
      constructor
      · intro found
        cases found
      · -- with no open grant there is nothing that covers a path
        have empty : ∀ kind path, ¬ Open host events kind path := by
          intro kind path isOpen
          have member := (mem_grants orderly kind path).2 isOpen
          cases kind <;> simp [nothing] at member
        rintro ⟨-, -, path, -, ⟨root, isOpen, -⟩ | ⟨-, root, isOpen, -⟩ | ⟨-, isOpen⟩⟩
        · exact absurd isOpen (empty _ _)
        · exact absurd isOpen (empty _ _)
        · exact absurd isOpen (empty _ _)
    · cases found : absolutePath host v with
      | none => simp [pathOf, found]
      | some path =>
          cases path with
          | none => simp [pathOf, found]
          | some s =>
              have boot := under_iff orderly .bootRoots s
              have roots := under_iff orderly .roots s
              have files := mem_grants orderly .files s
              by_cases stat : key ∈ STAT_KEYS
              · simp [pathOf, found, isFs, isKey, Covered, boot, roots, stat, apart key stat]
              · simp [pathOf, found, isFs, isKey, Covered, boot, files, stat]

omit orderly in
/-- What can be granted has one path, its first argument. -/
theorem boot_route {key : String} (isKey : key ∈ BOOT_KEYS) {route : Route} (isRoute : routeOf .fs key = some route) :
    route.paths = [0] := by
  have all := routes_known.boot key isKey
  simpa [isRoute] using all

omit orderly in
theorem path_granted (grants : GrantKind → List Text) (obj : Obj) (key : String) (v : Arg Value) :
    pathGranted host grants obj key v = some true ↔ granted host grants obj key v = some true := by
  cases v with
  | null => simp [pathGranted, granted, absolutePath]
  | number n => simp [pathGranted, granted, absolutePath]
  | text t => rfl
  | url isFile href => rfl
  | other v => rfl

theorem every_granted (key : String) (args : List (Arg Value)) :
    everyGranted host (run host events).grants.list .fs key args [0] = some true ↔
      key ∈ BOOT_KEYS ∧ ∃ path, pathOf host (argAt args 0) = some path ∧ Covered host events key path := by
  have one := granted_iff orderly .fs key (argAt args 0)
  simp only [true_and] at one
  rw [← one, ← path_granted, everyGranted]
  cases pathGranted host (run host events).grants.list .fs key (argAt args 0) with
  | none => simp
  | some found => cases found <;> simp [everyGranted]

omit orderly in
theorem real_iff (realFds : List Int) (route : Route) (args : List (Arg Value)) :
    (route.fd.any fun i => isReal realFds (argAt args i)) = true ↔
      ∃ i fd, route.fd = some i ∧ argAt args i = .number fd ∧ fd ∈ realFds := by
  cases route.fd with
  | none => simp
  | some i => cases found : argAt args i <;> simp [isReal, found]

omit orderly in
/-- A call for a descriptor of the original's own is the original's. -/
theorem real_original (obj : Obj) (key : String) {route : Route} {args : List (Arg Value)}
    (real : ∃ i fd, route.fd = some i ∧ argAt args i = .number fd ∧ fd ∈ (run host events).realFds) :
    served host (run host events) obj key route args = .original := by
  rw [← real_iff] at real
  unfold served
  rw [if_pos real]

/-- Any other call is the original's exactly when the loader's grants cover its path. -/
theorem covered_original {obj : Obj} {key : String} {route : Route} (isRoute : routeOf obj key = some route)
    {args : List (Arg Value)}
    (unreal : ¬ ∃ i fd, route.fd = some i ∧ argAt args i = .number fd ∧ fd ∈ (run host events).realFds) :
    served host (run host events) obj key route args = .original ↔
      obj = .fs ∧ key ∈ BOOT_KEYS ∧ ∃ path, pathOf host (argAt args 0) = some path ∧ Covered host events key path := by
  rw [← real_iff] at unreal
  unfold served
  rw [if_neg unreal]
  by_cases may : obj = .fs ∧ key ∈ BOOT_KEYS
  · obtain ⟨rfl, isKey⟩ := may
    have every := every_granted orderly key args
    rw [boot_route isKey isRoute, if_neg (by simp)]
    simp only [true_and]
    rw [← every]
    cases everyGranted host (run host events).grants.list .fs key args [0] with
    | none => simp
    | some found =>
        cases found with
        | true => simp
        | false => by_cases boot : (run host events).grants.list .bootRoots = [] <;> simp [boot]
  · -- whatever paths the call has, none is granted, and its first one already keeps it from the original
    have never : ∀ v, granted host (run host events).grants.list obj key v = some false := by
      intro v
      rw [granted, if_pos]
      tauto
    have denied : ∀ i rest, everyGranted host (run host events).grants.list obj key args (i :: rest) = some false := by
      intro i rest
      have refused : pathGranted host (run host events).grants.list obj key (argAt args i) = some false := by
        cases found : argAt args i <;> simp [pathGranted, never]
      simp [everyGranted, refused]
    constructor
    · intro isOriginal
      cases paths : route.paths with
      | nil => simp [paths] at isOriginal
      | cons i rest =>
          rw [paths, denied] at isOriginal
          split at isOriginal
          · cases isOriginal
          · dsimp only at isOriginal
            split at isOriginal <;> cases isOriginal
    · rintro ⟨isFs, isKey, -⟩
      exact absurd ⟨isFs, isKey⟩ may

/-- In every run, whatever was opened and released before and in whatever order, the original serves a call exactly
when the call is for a descriptor of its own, or is one of the loader's for a path that an open grant covers. -/
theorem original_iff {obj : Obj} {key : String} {route : Route} (isRoute : routeOf obj key = some route)
    (args : List (Arg Value)) :
    served host (run host events) obj key route args = .original ↔
      (∃ i fd, route.fd = some i ∧ argAt args i = .number fd ∧ fd ∈ (run host events).realFds) ∨
      (obj = .fs ∧ key ∈ BOOT_KEYS ∧ ∃ path, pathOf host (argAt args 0) = some path ∧ Covered host events key path) := by
  by_cases real : ∃ i fd, route.fd = some i ∧ argAt args i = .number fd ∧ fd ∈ (run host events).realFds
  · exact iff_of_true (real_original obj key real) (.inl real)
  · rw [or_iff_right real]
    exact covered_original orderly isRoute real

end Grants

/-! The descriptors of the original. -/
section Descriptors

variable {Value : Type} {host : Host Value}

/-- The original closes a descriptor. -/
def Closes (fd : Int) : Event Value → Prop
  | .call obj key args _ => obj = .fs ∧ (key = "closeSync" ∨ key = "close") ∧ argAt args 0 = .number fd
  | .readOriginal other => other = fd
  | _ => False

/-- The original opens a descriptor for a file that is covered. -/
def Opens (host : Host Value) (events : List (Event Value)) (fd : Int) (event : Event Value) : Prop :=
  ∃ args path, event = .call .fs "openSync" args (some fd) ∧ pathOf host (argAt args 0) = some path ∧
    Covered host events "openSync" path

theorem mem_add (realFds : List Int) (fd other : Int) : other ∈ addFd realFds fd ↔ other ∈ realFds ∨ other = fd := by
  unfold addFd
  split
  · rename_i there
    constructor
    · exact .inl
    · rintro (member | rfl)
      · exact member
      · exact there
  · simp

theorem mem_delete (realFds : List Int) (v : Arg Value) (fd : Int) :
    fd ∈ deleteFd realFds v ↔ fd ∈ realFds ∧ v ≠ .number fd := by
  cases v with
  | number n =>
      simp only [deleteFd, List.mem_filter, decide_eq_true_eq, Ne, Arg.number.injEq]
      exact and_congr_right fun _ => not_congr eq_comm
  | text t => simp [deleteFd]
  | url isFile href => simp [deleteFd]
  | null => simp [deleteFd]
  | other v => simp [deleteFd]

/-- The original opens for the loader's calls alone, and closes what is its own. -/
theorem open_route {obj : Obj} {route : Route} (isRoute : routeOf obj "openSync" = some route) : obj = .fs ∧ route = P0 := by
  cases obj with
  | fs =>
      exact ⟨rfl, Option.some.inj (isRoute.symm.trans routes_known.openSync.1)⟩
  | fsp =>
      rw [routes_known.openSync.2] at isRoute
      cases isRoute

theorem async_open_route (obj : Obj) : routeOf obj "open" = some P0 := by
  cases obj with
  | fs => exact routes_known.openAsync.1
  | fsp => exact routes_known.openAsync.2

theorem close_route {obj : Obj} {key : String} (isClose : key = "closeSync" ∨ key = "close") {route : Route}
    (isRoute : routeOf obj key = some route) : obj = .fs ∧ route = F0 := by
  obtain ⟨sync, noSync⟩ := routes_known.closeSync
  obtain ⟨async, noAsync⟩ := routes_known.closeAsync
  cases obj with
  | fs =>
      rcases isClose with rfl | rfl
      · exact ⟨rfl, Option.some.inj (isRoute.symm.trans sync)⟩
      · exact ⟨rfl, Option.some.inj (isRoute.symm.trans async)⟩
  | fsp =>
      rcases isClose with rfl | rfl
      · rw [noSync] at isRoute
        cases isRoute
      · rw [noAsync] at isRoute
        cases isRoute

variable {events : List (Event Value)} (orderly : Orderly (moves host events))
include orderly

omit orderly in
theorem refuse_real (s : Patched) (route : Route) (args : List (Arg Value)) :
    (refuse host s route args).realFds = s.realFds := by
  unfold refuse
  split
  · rfl
  · dsimp only
    split
    · rfl
    · split <;> rfl

/-- The original is opened with for what is covered, and by nothing else. -/
theorem open_original (args : List (Arg Value)) : served host (run host events) .fs "openSync" P0 args = .original ↔
    ∃ path, pathOf host (argAt args 0) = some path ∧ Covered host events "openSync" path := by
  rw [covered_original orderly routes_known.openSync.1 (by simp [P0])]
  have isKey : "openSync" ∈ BOOT_KEYS := by decide
  simp [isKey]

theorem async_open_brokered (obj : Obj) (args : List (Arg Value)) :
    served host (run host events) obj "open" P0 args ≠ .original := by
  rw [Ne, covered_original orderly (async_open_route obj) (by simp [P0])]
  have noKey : "open" ∉ BOOT_KEYS := by decide
  simp [noKey]

theorem served_real {obj : Obj} {key : String} {route : Route} (isRoute : routeOf obj key = some route)
    (args : List (Arg Value)) (opened : Option Int) (fd : Int)
    (isOriginal : served host (run host events) obj key route args = .original) :
    fd ∈ (callOrig (run host events) key args opened).realFds ↔
      (fd ∈ (run host events).realFds ∧ ¬ Closes fd (.call obj key args opened : Event Value)) ∨
        Opens host events fd (.call obj key args opened) := by
  unfold callOrig
  by_cases sync : key = "openSync"
  · subst sync
    obtain ⟨rfl, rfl⟩ := open_route isRoute
    obtain ⟨path, isPath, covered⟩ := (open_original orderly args).1 isOriginal
    have stays : ¬ Closes fd (.call .fs "openSync" args opened : Event Value) := by simp [Closes]
    rw [if_pos (.inl rfl)]
    cases opened with
    | none => simp [stays, Opens]
    | some new =>
        rw [mem_add, and_iff_left stays]
        refine or_congr_right ⟨?_, ?_⟩
        · rintro rfl
          exact ⟨args, path, rfl, isPath, covered⟩
        · rintro ⟨_, _, same, -⟩
          simp only [Event.call.injEq, Option.some.injEq] at same
          exact same.2.2.2.symm
  · have noOpen : ¬ Opens host events fd (.call obj key args opened) := by
      rintro ⟨_, _, same, -⟩
      simp only [Event.call.injEq] at same
      exact sync same.2.1
    by_cases async : key = "open"
    · subst async
      rw [async_open_route] at isRoute
      cases isRoute
      exact absurd isOriginal (async_open_brokered orderly obj args)
    · rw [if_neg (by simp [sync, async])]
      by_cases isClose : key = "closeSync" ∨ key = "close"
      · obtain ⟨rfl, rfl⟩ := close_route isClose isRoute
        rw [if_pos isClose, mem_delete]
        simp [Closes, isClose, noOpen]
      · rw [if_neg isClose]
        simp [Closes, isClose, noOpen]

theorem call_real (obj : Obj) (key : String) (args : List (Arg Value)) (opened : Option Int) (fd : Int) :
    fd ∈ (step host (run host events) (.call obj key args opened)).realFds ↔
      (fd ∈ (run host events).realFds ∧ ¬ Closes fd (.call obj key args opened : Event Value)) ∨
        Opens host events fd (.call obj key args opened) := by
  cases isRoute : routeOf obj key with
  | none =>
      have stays : ¬ Closes fd (.call obj key args opened : Event Value) := by
        rintro ⟨rfl, isClose, -⟩
        rcases isClose with rfl | rfl
        · simp [routes_known.closeSync.1] at isRoute
        · simp [routes_known.closeAsync.1] at isRoute
      have noOpen : ¬ Opens host events fd (.call obj key args opened) := by
        rintro ⟨_, _, same, -⟩
        simp only [Event.call.injEq] at same
        rw [same.1, same.2.1, routes_known.openSync.1] at isRoute
        cases isRoute
      simp [step, isRoute, stays, noOpen]
  | some route =>
      by_cases isOriginal : served host (run host events) obj key route args = .original
      · rw [step, isRoute]
        simp only [isOriginal]
        exact served_real orderly isRoute args opened fd isOriginal
      · -- the descriptors stay, and the call can neither open nor close one of the original's
        have same : (step host (run host events) (.call obj key args opened)).realFds = (run host events).realFds := by
          rw [step, isRoute]
          dsimp only
          split
          · rename_i is
            exact absurd is isOriginal
          · exact refuse_real _ _ _
          · rfl
        have noOpen : ¬ Opens host events fd (.call obj key args opened) := by
          rintro ⟨others, path, same, isPath, covered⟩
          simp only [Event.call.injEq] at same
          obtain ⟨rfl, rfl, rfl, -⟩ := same
          obtain ⟨-, rfl⟩ := open_route isRoute
          exact isOriginal ((open_original orderly args).2 ⟨path, isPath, covered⟩)
        have stays : fd ∈ (run host events).realFds → ¬ Closes fd (.call obj key args opened : Event Value) := by
          rintro real ⟨rfl, isClose, isFd⟩
          obtain ⟨-, rfl⟩ := close_route isClose isRoute
          exact isOriginal (real_original .fs key ⟨0, fd, rfl, isFd, real⟩)
        rw [same]
        simp only [noOpen, or_false]
        exact ⟨fun real => ⟨real, stays real⟩, And.left⟩

theorem step_real (event : Event Value) (fd : Int) : fd ∈ (step host (run host events) event).realFds ↔
    (fd ∈ (run host events).realFds ∧ ¬ Closes fd event) ∨ Opens host events fd event := by
  cases event with
  | grant kind paths => simp [step, Closes, Opens]
  | release n => simp [step, Closes, Opens]
  | call obj key args opened => exact call_real orderly obj key args opened fd
  | readOriginal other =>
      simp only [step, mem_delete, mem_add, Closes, Opens, reduceCtorEq, false_and, exists_false, or_false, Ne,
        Arg.number.injEq]
      constructor
      · rintro ⟨real | same, differs⟩
        · exact ⟨real, differs⟩
        · exact absurd same.symm differs
      · rintro ⟨real, differs⟩
        exact ⟨.inl real, differs⟩

omit orderly in
theorem moves_append (first later : List (Event Value)) :
    moves host (first ++ later) = moves host first ++ moves host later := List.filterMap_append

/-- In every run, a descriptor is the original's own exactly when it was opened in the run for a file that a grant
covered then, and has not been closed since: no other number reaches a file past the broker. -/
theorem real_descriptor_iff (fd : Int) : fd ∈ (run host events).realFds ↔
    ∃ before event after, events = before ++ event :: after ∧ Opens host before fd event ∧
      ∀ later ∈ after, ¬ Closes fd later := by
  induction events using List.reverseRecOn with
  | nil => simp [run]
  | append_singleton earlier event ih =>
      have front : Orderly (moves host earlier) := by
        rw [moves_append] at orderly
        exact orderly_front orderly
      rw [run_snoc, step_real front, ih front]
      -- the opening came before the last event, which then does not close, or is the last event
      constructor
      · rintro (⟨⟨before, opening, after, rfl, opens, stays⟩, still⟩ | opens)
        · refine ⟨before, opening, after ++ [event], by simp, opens, fun later member => ?_⟩
          rcases List.mem_append.1 member with old | new
          · exact stays later old
          · exact List.mem_singleton.1 new ▸ still
        · exact ⟨earlier, event, [], rfl, opens, by simp⟩
      · rintro ⟨before, opening, after, whole, opens, stays⟩
        rcases List.eq_nil_or_concat after with rfl | ⟨rest, last, rfl⟩
        · obtain ⟨rfl, isEvent⟩ := List.append_inj' whole rfl
          rw [(List.cons.inj isEvent).1]
          exact .inr opens
        · rw [List.concat_eq_append, ← List.cons_append, ← List.append_assoc] at whole
          obtain ⟨rfl, isEvent⟩ := List.append_inj' whole rfl
          obtain rfl := (List.cons.inj isEvent).1
          refine .inl ⟨⟨before, opening, rest, rfl, opens, fun later member => stays later ?_⟩, stays event ?_⟩
          · simp [member]
          · simp

end Descriptors

/-! The lookups of module code. -/
section Lookups

variable {Value : Type} {host : Host Value}

/-- The grant that a hook opens. -/
def ticketOf (host : Host Value) : LoaderHooks.Note → Option (Ticket GrantKind Text)
  | .resolving roots => some ⟨.roots, roots.map (resolve host)⟩
  | .reading p => some ⟨.files, [resolve host p]⟩
  | _ => none

/-- The grants that are open are those of the hooks for module code: each is for the module's package. -/
def InPackage (host : Host Value) (site : LoaderHooks.Site) (events : List (Event Value)) : Prop :=
  ∀ n ticket, Out (moves host events) n ticket → ∃ note, PackageLookups.InPackage site note ∧ ticketOf host note = some ticket

variable (host) in
theorem resolve_eq (t : Text) :
    ∃ path, (∀ name ∈ path, PathTexts.Plain name) ∧ resolve host t = (PathTexts.absoluteText path).toList :=
  ⟨PathTexts.place host.cwd (String.ofList t), (PathTexts.place_resolve host.plain _).2, by
    rw [resolve, PackageLookups.resolve_place host.plain]⟩

/-- What is named absolutely resolves to itself, whatever the working directory. -/
theorem resolve_named {p : Text} (named : Named p) : resolve host p = p := by
  have same := named.resolved_eq
  obtain ⟨names, some, plain, rfl⟩ := named
  have absolute : PathTexts.isAbsolute (String.ofList (joined names)) = true := by
    rw [LoaderHooks.joined_text some]
    exact PathTexts.absolute_absoluteText names
  have nonempty : String.ofList (joined names) ≠ "" := by
    rw [LoaderHooks.joined_text some]
    simp [PathTexts.absoluteText]
  have everywhere : ∀ cwd, PathTexts.fromCwd cwd (String.ofList (joined names)) = String.ofList (joined names) := by
    intro cwd
    rw [PathTexts.fromCwd, if_neg nonempty, if_pos absolute]
  rw [LoaderHooks.resolved, PathTexts.resolve, everywhere] at same
  rw [resolve, PathTexts.resolve, everywhere, same]

theorem path_of_absolutely {s path : Text} (found : absolutely host s = some path) :
    ∃ names, (∀ name ∈ names, PathTexts.Plain name) ∧ path = (PathTexts.absoluteText names).toList := by
  unfold absolutely at found
  split at found
  · obtain ⟨names, plain, same⟩ := resolve_eq host s
    exact ⟨names, plain, by rw [← Option.some.inj found, same]⟩
  · cases found

theorem path_of_text {s path : Text} (found : absoluteText host s = some path) :
    ∃ names, (∀ name ∈ names, PathTexts.Plain name) ∧ path = (PathTexts.absoluteText names).toList := by
  unfold absoluteText at found
  split at found
  · obtain ⟨t, -, isPath⟩ := Option.bind_eq_some_iff.1 found
    exact path_of_absolutely isPath
  · exact path_of_absolutely found

theorem path_of_arg {v : Arg Value} {path : Text} (found : pathOf host v = some path) :
    ∃ names, (∀ name ∈ names, PathTexts.Plain name) ∧ path = (PathTexts.absoluteText names).toList := by
  obtain ⟨inner, isInner, rfl⟩ : ∃ inner, absolutePath host v = some inner ∧ inner = some path := by
    simpa [pathOf, Option.join_eq_some_iff] using found
  cases v with
  | text t => exact path_of_text (Option.some.inj isInner)
  | url isFile href =>
      cases isFile with
      | true =>
          obtain ⟨t, -, isPath⟩ := Option.map_eq_some_iff.1 isInner
          exact path_of_text isPath
      | false => cases isInner
  | number n => cases isInner
  | null => cases isInner
  | other v => cases isInner

/-- A path in a part of a tree is in the tree. -/
theorem in_tree_under {root : List String} (some : root ≠ []) (plainRoot : ∀ name ∈ root, PathTexts.Plain name)
    {r path : Text} (tree : InTree root r) {names : List String} (plain : ∀ name ∈ names, PathTexts.Plain name)
    (isPath : path = (PathTexts.absoluteText names).toList) (within : insideRoot path r = true) : InTree root path := by
  obtain ⟨rest, plainRest, rfl⟩ := tree
  have plainWhole : ∀ name ∈ root ++ rest, PathTexts.Plain name :=
    fun name member => (List.mem_append.1 member).elim (plainRoot name) (plainRest name)
  cases names with
  | nil =>
      -- the root of the host is inside of nothing that has a name
      obtain ⟨first, others, rfl⟩ := List.exists_cons_of_ne_nil some
      obtain ⟨back, -, whole⟩ := (TextRoots.inside_iff _ _).1 within
      have short := congrArg List.length (isPath.symm.trans whole)
      have long := LoaderHooks.named_length (plainRoot first (by simp))
      have alone : (PathTexts.absoluteText []).toList = ['/'] := by decide
      rw [alone, List.cons_append, NamespacePaths.joined_cons] at short
      simp only [List.length_append, List.length_cons, List.length_nil] at short
      omega
  | cons name others =>
      have named : Named path := by
        refine ⟨name :: others, by simp, plain, ?_⟩
        rw [isPath, ← LoaderHooks.joined_text (by simp), String.toList_ofList]
      obtain ⟨more, plainMore, rfl⟩ := LoaderHooks.in_tree_of_inside plainWhole named within
      refine ⟨rest ++ more, ?_, by rw [List.append_assoc]⟩
      exact fun part member => (List.mem_append.1 member).elim (plainRest part) (plainMore part)

/-- While the hooks look something up for module code, the original `fs` serves nothing but files of the module's
package and the descriptors that it opened itself, whatever is called in the meantime. -/
theorem original_in_package {site : LoaderHooks.Site} {events : List (Event Value)}
    (orderly : Orderly (moves host events)) (inPackage : InPackage host site events) {obj : Obj} {key : String}
    {route : Route} (isRoute : routeOf obj key = some route) {args : List (Arg Value)}
    (isOriginal : served host (run host events) obj key route args = .original) :
    (∃ i fd, route.fd = some i ∧ argAt args i = .number fd ∧ fd ∈ (run host events).realFds) ∨
      ∃ path, pathOf host (argAt args 0) = some path ∧ InTree site.rootNames path := by
  refine or_iff_not_imp_left.2 fun unreal => ?_
  obtain ⟨-, -, path, isPath, covered⟩ := (covered_original orderly isRoute unreal).1 isOriginal
  obtain ⟨names, plain, same⟩ := path_of_arg isPath
  have named : ∀ {r}, InTree site.rootNames r → Named r := fun tree => ReachedCode.host_named tree
  refine ⟨path, isPath, ?_⟩
  rcases covered with ⟨root, ⟨n, ticket, isOut, kind, member⟩, within⟩ | ⟨-, root, ⟨n, ticket, isOut, kind, member⟩, within⟩ |
    ⟨-, n, ticket, isOut, kind, member⟩
  · obtain ⟨note, -, isTicket⟩ := inPackage n ticket isOut
    cases note <;> simp only [ticketOf, Option.some.injEq, reduceCtorEq] at isTicket <;> subst isTicket <;> cases kind
  · obtain ⟨note, package, isTicket⟩ := inPackage n ticket isOut
    cases note with
    | resolving roots =>
        obtain rfl := Option.some.inj isTicket
        obtain ⟨r, isRoot, rfl⟩ := List.mem_map.1 member
        rw [resolve_named (named (package r isRoot))] at within
        exact in_tree_under site.rooted site.plain (package r isRoot) plain same within
    | reading p =>
        obtain rfl := Option.some.inj isTicket
        cases kind
    | _ => cases isTicket
  · obtain ⟨note, package, isTicket⟩ := inPackage n ticket isOut
    cases note with
    | resolving roots =>
        obtain rfl := Option.some.inj isTicket
        cases kind
    | reading p =>
        obtain rfl := Option.some.inj isTicket
        rw [List.mem_singleton.1 member, resolve_named (named package)]
        exact package
    | _ => cases isTicket

theorem srv_plain : ∀ name ∈ ["srv"], PathTexts.Plain name := by decide

/-- A worker's host, and a lookup in the package of `/srv/shop` with a load of one of its files inside. -/
def shopHost : Host Unit := ⟨["srv"], srv_plain, fun _ => none, fun _ => []⟩

def srvShop : Text := joined ["srv", "shop"]
def srvShopIndex : Text := joined ["srv", "shop", "i.js"]

def lookup : List (Event Unit) :=
  [.grant .roots [srvShop], .grant .files [srvShopIndex], .call .fs "openSync" [.text srvShopIndex] (some 20), .release 1]

theorem lookup_orderly : Orderly (moves shopHost lookup) := by
  have opened : Orderly (moves shopHost (lookup.take 3)) := .take [_] _ (.take [] _ .nil)
  exact .giveBack _ 1 opened (by decide) (by decide)

theorem original_iff_here :
    served shopHost (run shopHost lookup) .fs "statSync" P0 [.text srvShopIndex] = .original ↔
      (∃ i fd, P0.fd = some i ∧ argAt [(.text srvShopIndex : Arg Unit)] i = .number fd ∧
        fd ∈ (run shopHost lookup).realFds) ∨
      (Obj.fs = .fs ∧ "statSync" ∈ BOOT_KEYS ∧
        ∃ path, pathOf shopHost (argAt [.text srvShopIndex] 0) = some path ∧ Covered shopHost lookup "statSync" path) :=
  original_iff lookup_orderly (by decide +kernel) _

theorem real_descriptor_here : (20 : Int) ∈ (run shopHost lookup).realFds ↔
    ∃ before event after, lookup = before ++ event :: after ∧ Opens shopHost before 20 event ∧
      ∀ later ∈ after, ¬ Closes 20 later :=
  real_descriptor_iff lookup_orderly 20

theorem original_in_package_here :
    (∃ i fd, P0.fd = some i ∧ argAt [(.text srvShopIndex : Arg Unit)] i = .number fd ∧
      fd ∈ (run shopHost lookup).realFds) ∨
      ∃ path, pathOf shopHost (argAt [.text srvShopIndex] 0) = some path ∧ InTree ReachedCode.shop.rootNames path := by
  have inPackage : InPackage shopHost ReachedCode.shop lookup := by
    rintro n ticket ⟨isTicket, held⟩
    rcases n with _ | _ | n
    · refine ⟨.resolving [srvShop], ?_, isTicket⟩
      simpa [PackageLookups.InPackage, srvShop] using ⟨[], by simp, by decide⟩
    · exact absurd (by decide) held
    · cases isTicket
  have isRoute : routeOf .fs "statSync" = some P0 := by decide +kernel
  have isOriginal : served shopHost (run shopHost lookup) .fs "statSync" P0 [.text srvShopIndex] = .original := by
    decide +kernel
  exact original_in_package lookup_orderly inPackage isRoute isOriginal

end Lookups

end Countinghouse.FsRouting
