import Countinghouse.DiskQuota
import Countinghouse.FileNamespace
import Countinghouse.HostCalls
import Countinghouse.Program

/-!
The world that one module's file broker acts on: the host's tree and open files,
the broker's own tables (the realpath cache, the descriptor table, the quota, the
reports) and the clock. Each action is what the broker does between two awaits.

The host answers `realpath`, `stat` and `lstat` from the tree; every other call may
fail at any time (`Chance`). Linux is assumed, with one file system, so that an
inode number is an identity and /proc/self/fd names an open file.
-/

namespace Countinghouse.BrokerWorld

open HostTree HostCalls FileNamespace
open DiskQuota (Quota Amount)

/-- An error as the broker raises it: its code, and the paths the module gave. -/
structure NodeError where
  code : Errno
  syscall : String
  path : Option PathText
  dest : Option PathText
  deriving DecidableEq

inductive Ident where
  | node (ino : Nat)
  | parent (real : Path)
  deriving DecidableEq

/-- A path placed in a root: `within` is the root its virtual path names, `root` the
one its real location was found in. -/
structure Site where
  virtual : Path
  host : Path
  within : Root
  root : Root
  ident : Option Ident
  deriving DecidableEq

inductive Placed where
  | above (virtual : Path) (children : List Child)
  | free (virtual : Path)
  | rooted (site : Site)
  deriving DecidableEq

def Placed.virtual : Placed → Path
  | .above virtual _ => virtual
  | .free virtual => virtual
  | .rooted site => site.virtual

/-- `null` for a directory above the roots. -/
def Placed.host : Placed → Option Path
  | .above _ _ => none
  | .free virtual => some virtual
  | .rooted site => some site.host

/-- What `fds` keeps for a descriptor. -/
structure Entry where
  handle : Nat
  placed : Placed
  pos : Nat
  append : Bool
  counts : Bool
  deriving DecidableEq

structure CacheHit where
  real : Path
  time : Nat
  deriving DecidableEq

def rpCacheMs : Nat := 1000
def rpCacheMax : Nat := 1024
def maxFds : Nat := 256
def maxIo : Nat := 16 * 1024 * 1024
def maxReports : Nat := 100

inductive Rule where
  | outside | escape | readonly | special | suppressed
  deriving DecidableEq

structure World where
  host : Host
  /-- The host's open files, by handle. -/
  files : List (Nat × OpenFile)
  nextHandle : Nat
  /-- `rpCache`, in the order of insertion. -/
  cache : List (Path × CacheHit)
  /-- The keys of `fds`; an entry outlives its key while operations still hold it. -/
  fds : List Nat
  entries : List (Nat × Entry)
  nextFd : Nat
  quota : Quota Int
  closed : Bool
  reported : List (Rule × Path)
  reports : List (Rule × Path)
  clock : Nat
  chances : Nat → Chance
  turn : Nat

/-- The world of a broker that was just made. -/
def World.fresh (host : Host) (quota : Quota Int) (chances : Nat → Chance) : World where
  host := host
  files := []
  nextHandle := 0
  cache := []
  fds := []
  entries := []
  nextFd := 3
  quota := quota
  closed := false
  reported := []
  reports := []
  clock := 0
  chances := chances
  turn := 0

structure Stats where
  node : Node
  inode : Inode
  nlink : Nat
  deriving DecidableEq

def Stats.isDirectory (st : Stats) : Bool := st.node.kind = .dir
def Stats.isFile (st : Stats) : Bool := st.node.kind = .file
def Stats.isSymbolicLink (st : Stats) : Bool :=
  match st.node.kind with
  | .link _ => true
  | _ => false
def Stats.size (st : Stats) : Nat := st.inode.size

structure Usage where
  bytes : Nat
  entries : Nat
  deriving DecidableEq

/-! What the world answers. -/

def lookAt (host : Host) (path : Path) (follow : Bool) : Except Errno Stats :=
  match HostCalls.place host.names path follow with
  | .error code => .error code
  | .ok location =>
      match nodeAt host.names location with
      | none => .error .ENOENT
      | some node => .ok ⟨node, host.inodes node.ino, nlink host.names node.ino⟩

/-- The inodes of the regular files below a location, each once. -/
def filesBelow (names : Names) (location : Path) : List Nat :=
  ((below names location).filterMap fun entry =>
    if entry.2.kind = .file then some entry.2.ino else none).dedup

/-- `spawnWalk.measure` of one directory with `whollyInside`: a file counts when
every name of it is below the directory. -/
def measure (host : Host) (path : Path) : Except Errno Usage :=
  match leaf host.names path with
  | .error code => .error code
  | .ok location =>
      if isDir host.names location then
        let wholly := (filesBelow host.names location).filter fun ino =>
          nlink host.names ino ≤ nlink (below host.names location) ino
        .ok ⟨(wholly.map fun ino => (host.inodes ino).size).sum, (below host.names location).length⟩
      else .error .ENOTDIR

/-- `rpCache.set`, with the oldest entry making room. -/
def remember (cache : List (Path × CacheHit)) (dir : Path) (hit : CacheHit) : List (Path × CacheHit) :=
  let kept := if rpCacheMax ≤ cache.length then cache.drop 1 else cache
  if kept.any fun entry => entry.1 == dir then
    kept.map fun entry => if entry.1 == dir then (dir, hit) else entry
  else kept ++ [(dir, hit)]

/-- Where an open file is after a change to the names. -/
def relocate : Option Path → Change → Option Path
  | none, _ => none
  | some location, .add _ _ => some location
  | some location, .drop gone spared => if dropped gone spared location then none else some location
  | some location, .move source dest =>
      if inside location dest then none else some (moved source dest location)

def OpenFile.follow (file : OpenFile) (changes : List Change) : OpenFile :=
  { file with location := changes.foldl relocate file.location }

def World.applied (world : World) (effect : Effect) : World :=
  { world with
    host := world.host.apply effect
    files := world.files.map fun entry => (entry.1, OpenFile.follow entry.2 effect.changes) }

def World.chance (world : World) : Chance := world.chances world.turn

/-- A host call has returned. -/
def World.passed (world : World) : World :=
  { world with turn := world.turn + 1, clock := world.clock + world.chance.wait }

def World.file (world : World) (handle : Nat) : Option OpenFile := world.files.lookup handle

def setFile (files : List (Nat × OpenFile)) (handle : Nat) (file : OpenFile) : List (Nat × OpenFile) :=
  files.map fun entry => if entry.1 == handle then (handle, file) else entry

def World.report (world : World) (rule : Rule) (target : Path) : World :=
  if world.reported.contains (rule, target) || maxReports < world.reported.length then world
  else
    { world with
      reported := world.reported ++ [(rule, target)]
      reports := world.reports ++
        [if maxReports < world.reported.length + 1 then (.suppressed, []) else (rule, target)] }

/-! The actions. -/

inductive Act where
  | now
  | isClosed
  | clearCache
  | cached (dir : Path)
  | remember (dir : Path) (hit : CacheHit)
  | realpath (path : Path)
  | lstat (path : Path)
  | stat (path : Path)
  | measure (path : Path)
  /-- A call on paths; `open` is below. -/
  | call (call : Call)
  | openFile (path : Path) (flags : OpenFlags) (mode : Nat)
  | onFile (handle : Nat) (act : FdAct)
  | closeFile (handle : Nat)
  | fileLink (handle : Nat)
  | fdOpen (fd : Nat)
  | fdCount
  | entryOf (fd : Nat)
  | fdAdd (entry : Entry)
  | fdDrop (fd : Nat)
  | setPos (fd : Nat) (pos : Nat)
  | reserve (bytes entries : Amount Int)
  | settle (reservedBytes reservedEntries actualBytes actualEntries : Amount Int)
  | report (rule : Rule) (target : Path)
  deriving DecidableEq

@[reducible] def Act.Answer : Act → Type
  | .now => Nat
  | .isClosed => Bool
  | .clearCache => Unit
  | .cached _ => Option CacheHit
  | .remember _ _ => Unit
  | .realpath _ => Except Errno Path
  | .lstat _ => Except Errno Stats
  | .stat _ => Except Errno Stats
  | .measure _ => Except Errno Usage
  | .call _ => Except Errno Reply
  | .openFile _ _ _ => Except Errno Nat
  | .onFile _ _ => Except Errno Reply
  | .closeFile _ => Unit
  | .fileLink _ => Option Path
  | .fdOpen _ => Bool
  | .fdCount => Nat
  | .entryOf _ => Option Entry
  | .fdAdd _ => Nat
  | .fdDrop _ => Unit
  | .setPos _ _ => Unit
  | .reserve _ _ => Bool
  | .settle _ _ _ _ => Unit
  | .report _ _ => Unit

/-- What a call of the host does in this world. -/
def World.outcome (world : World) (call : Call) : Outcome := exec world.host call world.chance

def World.open (world : World) (path : Path) (flags : OpenFlags) (mode : Nat) :
    Except Errno Nat × World :=
  let outcome := world.outcome (.openFile path flags mode)
  let after := (world.applied outcome.1).passed
  match outcome.2 with
  | .ok (.opened file) =>
      (.ok world.nextHandle,
        { after with
          files := after.files ++ [(world.nextHandle, file)]
          nextHandle := world.nextHandle + 1 })
  | .ok _ => (.error .EINVAL, after)
  | .error code => (.error code, after)

def World.onFile (world : World) (handle : Nat) (act : FdAct) : Except Errno Reply × World :=
  match world.file handle with
  | none => (.error .EBADF, world.passed)
  | some file =>
      let outcome := world.outcome (.descriptor file act)
      let after := (world.applied outcome.1).passed
      match outcome.2 with
      | .ok (.read bytes offset) =>
          (.ok (.read bytes offset), { after with files := setFile after.files handle { file with offset := offset } })
      | .ok (.wrote count offset) =>
          (.ok (.wrote count offset), { after with files := setFile after.files handle { file with offset := offset } })
      | reply => (reply, after)

def handle : Program.Handler Act Act.Answer World
  | .now, world => (world.clock, world)
  | .isClosed, world => (world.closed, world)
  | .clearCache, world => ((), { world with cache := [] })
  | .cached dir, world => (world.cache.lookup dir, world)
  | .remember dir hit, world => ((), { world with cache := BrokerWorld.remember world.cache dir hit })
  | .realpath path, world => (HostTree.realpath world.host.names path, world.passed)
  | .lstat path, world => (lookAt world.host path false, world.passed)
  | .stat path, world => (lookAt world.host path true, world.passed)
  | .measure path, world => (BrokerWorld.measure world.host path, world.passed)
  | .call call, world => ((world.outcome call).2, (world.applied (world.outcome call).1).passed)
  | .openFile path flags mode, world => world.open path flags mode
  | .onFile handle act, world => world.onFile handle act
  | .closeFile handle, world =>
      ((), { world with files := world.files.filter fun entry => entry.1 != handle })
  | .fileLink handle, world => ((world.file handle).bind OpenFile.location, world.passed)
  | .fdOpen fd, world => (world.fds.contains fd, world)
  | .fdCount, world => (world.fds.length, world)
  | .entryOf fd, world => (world.entries.lookup fd, world)
  | .fdAdd entry, world =>
      (world.nextFd,
        { world with
          fds := world.fds ++ [world.nextFd]
          entries := world.entries ++ [(world.nextFd, entry)]
          nextFd := world.nextFd + 1 })
  | .fdDrop fd, world => ((), { world with fds := world.fds.filter fun other => other != fd })
  | .setPos fd pos, world =>
      ((), { world with
        entries := world.entries.map fun entry =>
          if entry.1 == fd then (entry.1, { entry.2 with pos := pos }) else entry })
  | .reserve bytes entries, world =>
      match DiskQuota.reserve world.quota bytes entries with
      | some quota => (true, { world with quota := quota })
      | none => (false, world)
  | .settle reservedBytes reservedEntries actualBytes actualEntries, world =>
      ((), { world with
        quota := DiskQuota.settle world.quota reservedBytes reservedEntries actualBytes actualEntries })
  | .report rule target, world => ((), world.report rule target)

theorem mem_of_lookup {α β : Type} [BEq α] [LawfulBEq α] {table : List (α × β)} {key : α} {value : β}
    (found : table.lookup key = some value) : (key, value) ∈ table := by
  obtain ⟨before, after, split, _⟩ := List.lookup_eq_some_iff.mp found
  rw [split]
  exact List.mem_append_right before List.mem_cons_self

end Countinghouse.BrokerWorld
