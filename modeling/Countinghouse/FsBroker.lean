import Mathlib
import Countinghouse.BrokerWorld

/-!
One module's file broker, lib/fs-broker/broker.js: deciding where a path argument
lies, checking it on the host, and the primitive operations of `OPS`.

An operation is a program of actions. Its arguments are what the module sent, read
as JavaScript reads them: a length or position that is no number is NaN (`none`).
-/

namespace Countinghouse.FsBroker

open HostTree HostCalls FileNamespace BrokerWorld
open DiskQuota (Quota Amount plus minus atLeastZero)
open Program (Prog)

abbrev Code := Prog Act Act.Answer NodeError

def perform (action : Act) : Code action.Answer := Prog.act action .done

inductive Mode where
  | off | audit | enforce
  deriving DecidableEq

structure Broker where
  ns : Namespace
  mode : Mode
  cwd : Path
  maxEntries : Nat
  /-- `this.quota != null` -/
  counting : Bool

def Broker.enforce (b : Broker) : Bool := b.mode = .enforce

/-! Errors. -/

def textOf (path : Path) : PathText := ⟨true, Path.segs path⟩

def nodeError (code : Errno) (syscall : String) (virtual : Path) : NodeError :=
  ⟨code, syscall, some (textOf virtual), none⟩

def pairError (code : Errno) (syscall : String) (source dest : Placed) : NodeError :=
  ⟨code, syscall, some (textOf source.virtual), some (textOf dest.virtual)⟩

def typeError : NodeError := ⟨.ERR_INVALID_ARG, "", none, none⟩

/-- What Node throws where the host refuses a call; a refused argument names no call. -/
def hostError (syscall : String) (code : Errno) : NodeError :=
  ⟨code, if code = .ERR_INVALID_ARG then "" else syscall, none, none⟩

@[simp] theorem hostError_code (syscall : String) (code : Errno) : (hostError syscall code).code = code := rfl

def rewrite (e : NodeError) (syscall : String) (placed : Placed) (dest : Option Placed) : NodeError :=
  ⟨e.code, if e.code ≠ .ERR_INVALID_ARG ∧ e.syscall = "" then syscall else e.syscall, some (textOf placed.virtual),
    dest.map fun other => textOf other.virtual⟩

def raised {α : Type} (syscall : String) : Except Errno α → Code α
  | .ok value => pure value
  | .error code => throw (hostError syscall code)

def refuseIf (refused : Bool) (error : NodeError) : Code Unit :=
  if refused then throw error else pure ()

def onlyIf (condition : Bool) (code : Code Unit) : Code Unit :=
  if condition then code else pure ()

/-- `.catch(() => null)` -/
def orNull {α : Type} (code : Code α) : Code (Option α) :=
  tryCatch (do
    let value ← code
    return some value) fun _ => pure none

/-! The actions, with the types of their answers. -/

def dateNow : Code Nat := perform .now
def cacheGet (dir : Path) : Code (Option CacheHit) := perform (.cached dir)
def cacheSet (dir : Path) (hit : CacheHit) : Code Unit := perform (.remember dir hit)
def cacheClear : Code Unit := perform .clearCache
def isClosed : Code Bool := perform .isClosed
def fdHas (fd : Nat) : Code Bool := perform (.fdOpen fd)
def fdSize : Code Nat := perform .fdCount
def fdGet (fd : Nat) : Code (Option Entry) := perform (.entryOf fd)
def fdSet (entry : Entry) : Code Nat := perform (.fdAdd entry)
def fdDelete (fd : Nat) : Code Unit := perform (.fdDrop fd)
def setPos (fd pos : Nat) : Code Unit := perform (.setPos fd pos)
def quotaReserve (bytes entries : Amount Int) : Code Bool := perform (.reserve bytes entries)
def settle (reservedBytes reservedEntries actualBytes actualEntries : Amount Int) : Code Unit :=
  perform (.settle reservedBytes reservedEntries actualBytes actualEntries)
def addReport (rule : Rule) (target : Path) : Code Unit := perform (.report rule target)
def tryRealpath (path : Path) : Code (Except Errno Path) := perform (.realpath path)
def tryLstat (path : Path) : Code (Except Errno Stats) := perform (.lstat path)
def tryStat (path : Path) : Code (Except Errno Stats) := perform (.stat path)
def tryMeasure (path : Path) : Code (Except Errno Usage) := perform (.measure path)
def tryCall (call : Call) : Code (Except Errno Reply) := perform (.call call)
def tryOpen (path : Path) (flags : OpenFlags) (mode : Nat) : Code (Except Errno Nat) :=
  perform (.openFile path flags mode)
def tryFile (handle : Nat) (act : FdAct) : Code (Except Errno Reply) := perform (.onFile handle act)
def fileLink (handle : Nat) : Code (Option Path) := perform (.fileLink handle)
def fhClose (handle : Nat) : Code Unit := perform (.closeFile handle)

/-! Calls of the host. -/

def fsRealpath (path : Path) : Code Path := do raised "realpath" (← tryRealpath path)
def fsLstat (path : Path) : Code Stats := do raised "lstat" (← tryLstat path)
def fsStat (path : Path) : Code Stats := do raised "stat" (← tryStat path)
def fsCall (syscall : String) (call : Call) : Code Reply := do raised syscall (← tryCall call)
def fsOpen (path : Path) (flags : OpenFlags) (mode : Nat) : Code Nat := do
  raised "open" (← tryOpen path flags mode)
def fhCall (syscall : String) (handle : Nat) (act : FdAct) : Code Reply := do
  raised syscall (← tryFile handle act)

def fhStat (handle : Nat) : Code Stats := do
  match ← fhCall "fstat" handle .stat with
  | .seen _ node inode links => return ⟨node, inode, links⟩
  | _ => throw typeError

def fhRead (handle : Nat) (position : Option Nat) (length : Nat) : Code (List UInt8) := do
  match ← fhCall "read" handle (.read position length) with
  | .read bytes _ => return bytes
  | _ => throw typeError

def fhWrite (handle : Nat) (position : Option Nat) (bytes : List UInt8) : Code Nat := do
  match ← fhCall "write" handle (.write position bytes) with
  | .wrote count _ => return count
  | _ => throw typeError

def lstatOrNull (path : Path) : Code (Option Stats) := orNull (fsLstat path)

/-! Placing a path. -/
section Place

variable (b : Broker)

def report (rule : Rule) (target : Path) : Code Unit :=
  onlyIf (b.mode ≠ .off) (addReport rule target)

def dirname (path : Path) : Path := path.dropLast

/-- The location of a host path's own name in the real path of its directory. -/
def inParent (parentReal host : Path) : Path := parentReal ++ host.getLast?.toList

def freshRealpath (dir : Path) (now : Nat) : Code Path := do
  let real ← fsRealpath dir
  cacheSet dir ⟨real, now⟩
  return real

def cachedRealpath (dir : Path) : Code Path := do
  let now ← dateNow
  match ← cacheGet dir with
  | some hit => if now - hit.time < rpCacheMs then return hit.real else freshRealpath dir now
  | none => freshRealpath dir now

/-- `viaParent`: no answer when the directory has no real path. -/
def viaParent (host : Path) (follow : Bool) : Code (Option (Path × Ident)) := do
  match ← orNull (cachedRealpath (dirname host)) with
  | none => return none
  | some parentReal =>
      let realLoc := inParent parentReal host
      match ← lstatOrNull realLoc with
      | some st => return some (realLoc, if follow then .parent parentReal else .node st.node.ino)
      | none => return some (realLoc, .parent parentReal)

/-- The shortcut for a following operation whose name is no link. -/
def viaName (host : Path) : Code (Option (Path × Ident)) := do
  match ← orNull (cachedRealpath (dirname host)) with
  | none => return none
  | some parentReal =>
      let loc := inParent parentReal host
      match ← tryLstat loc with
      | .ok st => return if st.isSymbolicLink then none else some (loc, .node st.node.ino)
      | .error code => return if code = .ENOENT then some (loc, .parent parentReal) else none

/-- The real path of the host path itself, or that of its directory when the name
leads to nothing. -/
def viaLeaf (virtual host : Path) (syscall : String) (follow : Bool) : Code (Option (Path × Ident)) :=
  tryCatch (do
    let realLoc ← fsRealpath host
    let st ← fsStat realLoc
    return some (realLoc, .node st.node.ino)) fun e =>
      if e.code = .ENOENT then viaParent host follow else throw (rewrite e syscall (.free virtual) none)

inductive Check where
  | escape
  | held (root : Root) (ident : Option Ident)

/-- Where the object really is, if that can be told. -/
def realLocation (virtual host : Path) (root : Root) (syscall : String) (follow : Bool) :
    Code (Option (Path × Ident)) := do
  let isRootItself := virtual = root.vroot
  let early ← if follow && !isRootItself then viaName host else pure none
  if early.isSome then return early
  else if follow || isRootItself then viaLeaf virtual host syscall follow
  else viaParent host follow

/-- The root that holds the location; nothing is known of one that was not told. -/
def holderOf (root : Root) : Option (Path × Ident) → Check
  | none => .held root none
  | some (realLoc, ident) =>
      match rootForReal b.ns realLoc with
      | none => .escape
      | some holder => .held holder (some ident)

def checkHost (virtual host : Path) (root : Root) (syscall : String) (follow : Bool) : Code Check := do
  let site ← realLocation virtual host root syscall follow
  return holderOf b root site

inductive Want where
  | r | w
  deriving DecidableEq

def place (path : PathArg) (want : Want) (syscall : String) (follow : Bool) : Code Placed :=
  match toVirtualPath b.cwd path with
  | none => throw typeError
  | some v =>
      match resolve b.ns v with
      | .ancestor virtual kids =>
          if !b.enforce then return .free virtual
          else if want = .w then throw (nodeError .EROFS syscall virtual)
          else return .above virtual kids
      | .outside virtual => do
          report b .outside virtual
          refuseIf b.enforce (nodeError .ENOENT syscall virtual)
          return .free virtual
      | .root virtual host root =>
          let placed : Site := ⟨virtual, host, root, root, none⟩
          if b.mode = .off then return .rooted placed
          else do
            let site ← match ← checkHost b virtual host root syscall follow with
              | .escape => do
                  report b .escape virtual
                  refuseIf b.enforce (nodeError .ENOENT syscall virtual)
                  pure placed
              | .held holder ident => pure { placed with root := holder, ident := ident }
            onlyIf (want = .w && !site.root.writable) do
              report b .readonly virtual
              refuseIf b.enforce (nodeError .EROFS syscall virtual)
            return .rooted site

/-- Whether an opened file is the one that was checked. -/
def sameOpened (handle : Nat) (site : Site) (writes : Bool) : Ident → Code Bool
  | .parent real => do
      let parentReal ← orNull (fsRealpath (dirname site.host))
      inRoot (parentReal = some real)
  | .node ino => do
      let st ← fhStat handle
      inRoot (st.node.ino = ino)
where
  inRoot (ok : Bool) : Code Bool := do
    if ok then
      match ← fileLink handle with
      | none => return true
      | some link =>
          match rootForReal b.ns link with
          | none => return false
          | some holder => return !(writes && holder != site.root)
    else return false

def verifyOpened (handle : Nat) (placed : Placed) (syscall : String) (writes : Bool) : Code Unit :=
  match placed with
  | .rooted site =>
      match site.ident with
      | some ident =>
          if b.enforce then do
            let ok ← sameOpened b handle site writes ident
            onlyIf (!ok) do
              fhClose handle
              report b .escape site.virtual
              throw (nodeError .ENOENT syscall site.virtual)
          else pure ()
      | none => pure ()
  | _ => pure ()

def isRoot : Placed → Bool
  | .rooted site => site.virtual = site.within.vroot
  | _ => false

def quotaRoot : Placed → Bool
  | .rooted site => site.within.quota
  | _ => false

def out (location : Path) (placed : Placed) : Path :=
  match placed with
  | .rooted site => (toVirtual b.ns location).getD site.virtual
  | _ => location

def runOn {α : Type} (placed : Placed) (syscall : String) (dest : Option Placed) (fn : Code α) : Code α :=
  tryCatch fn fun e => throw (rewrite e syscall placed dest)

/-- The host path of a placed argument; Node refuses the `null` of a directory above
the roots. -/
def hostOf (placed : Placed) : Code Path :=
  match placed.host with
  | some host => pure host
  | none => throw typeError

end Place

/-! Counting against the quota. -/
section Count

variable (b : Broker)

def reserve (bytes entries : Amount Int) (syscall : String) (placed : Placed) : Code Unit := do
  let accepted ← quotaReserve bytes entries
  refuseIf (!accepted) (nodeError .ENOSPC syscall placed.virtual)

def counts (placed : Placed) : Bool := b.counting && quotaRoot placed

/-- `counted`; `actual` is what a success settles with. -/
def counted {α : Type} (placed : Placed) (bytes entries : Amount Int) (syscall : String) (fn : Code α)
    (actual : Amount Int × Amount Int) : Code α :=
  if counts b placed then do
    reserve bytes entries syscall placed
    let result ← tryCatch fn fun e => do
      settle bytes entries (some 0) (some 0)
      throw e
    settle bytes entries actual.1 actual.2
    return result
  else fn

def release (placed : Placed) (usage : Usage) : Code Unit :=
  onlyIf (counts b placed && (usage.bytes != 0 || usage.entries != 0))
    (settle (some 0) (some 0) (some (-(usage.bytes : Int))) (some (-(usage.entries : Int))))

/-- The bytes a file's removal gives back: nothing while it has another name. -/
def lastLinkBytes (st : Stats) : Nat := if st.isFile && st.nlink = 1 then st.size else 0

def removalUsage (host : Path) : Code Usage := do
  match ← lstatOrNull host with
  | none => return ⟨0, 0⟩
  | some st =>
      if st.isDirectory then do
        let sub ← raised "scandir" (← tryMeasure host)
        return ⟨sub.bytes, sub.entries + 1⟩
      else return ⟨lastLinkBytes st, 1⟩

/-- What a removal will give back, where it is counted. -/
def measured (placed : Placed) (host : Path) : Code Usage :=
  if counts b placed then removalUsage host else pure ⟨0, 0⟩

/-- What a rename gives back: the object it replaces, unless both are one. -/
def replacedUsage (src dst : Option Stats) : Usage :=
  match dst with
  | none => ⟨0, 0⟩
  | some st =>
      if src.any fun other => other.node.ino == st.node.ino then ⟨0, 0⟩ else ⟨lastLinkBytes st, 1⟩

def measuredReplaced (dest : Placed) (sourceHost destHost : Path) : Code Usage :=
  if counts b dest then do
    let src ← lstatOrNull sourceHost
    let dst ← lstatOrNull destHost
    return replacedUsage src dst
  else pure ⟨0, 0⟩

def sizeOf? (st : Option Stats) : Nat := (st.map Stats.size).getD 0

def statIf (counted : Bool) (host : Path) : Code (Option Stats) :=
  if counted then orNull (fsStat host) else pure none

def lstatIf (counted : Bool) (host : Path) : Code (Option Stats) :=
  if counted then lstatOrNull host else pure none

def sizeIf (counted : Bool) (handle : Nat) : Code Nat :=
  if counted then do
    let st ← fhStat handle
    return st.size
  else pure 0

end Count

/-! Arguments. -/
section Arguments

inductive FlagsArg where
  | omitted
  | number (flags : OpenFlags)
  | text (flags : String)
  deriving DecidableEq

def creating (flags : OpenFlags) (append excl : Bool) : OpenFlags :=
  { flags with creat := true, trunc := !append, append := append, excl := excl }

def flagTable (flags : String) : Option OpenFlags :=
  let read : OpenFlags := {}
  let write : OpenFlags := { wronly := true }
  let both : OpenFlags := { rdwr := true }
  if flags ∈ ["r", "rs", "sr"] then some read
  else if flags ∈ ["r+", "rs+", "sr+"] then some both
  else if flags = "w" then some (creating write false false)
  else if flags ∈ ["wx", "xw"] then some (creating write false true)
  else if flags = "w+" then some (creating both false false)
  else if flags ∈ ["wx+", "xw+"] then some (creating both false true)
  else if flags ∈ ["a", "as", "sa"] then some (creating write true false)
  else if flags ∈ ["ax", "xa"] then some (creating write true true)
  else if flags ∈ ["a+", "as+", "sa+"] then some (creating both true false)
  else if flags ∈ ["ax+", "xa+"] then some (creating both true true)
  else none

def numericFlags : FlagsArg → Option OpenFlags
  | .omitted => flagTable "r"
  | .number flags => some flags
  | .text flags => flagTable flags

def writes (flags : OpenFlags) : Bool :=
  flags.wronly || flags.rdwr || flags.creat || flags.trunc || flags.append

def creates (flags : OpenFlags) : Bool := flags.creat || flags.trunc || flags.excl

/-- A length argument; `other` is one that Node refuses, with its `Number(...)`. -/
inductive Length where
  | omitted
  | integer (length : Int)
  | other (number : Amount Int)
  deriving DecidableEq

def Length.number : Length → Amount Int
  | .omitted => some 0
  | .integer length => some length
  | .other number => number

def Length.accepted : Length → Option Int
  | .omitted => some 0
  | .integer length => some length
  | .other _ => none

/-- A position argument: `other` is one that is no safe integer, with its `Number(...)`. A write takes it as absent, a
read refuses it; a read takes a big integer as one of `integer`. -/
inductive Position where
  | omitted
  | integer (position : Int)
  | other (number : Amount Int)
  deriving DecidableEq

/-- `Number(position)` of a position that is given. -/
def Position.number : Position → Option (Amount Int)
  | .omitted => none
  | .integer position => some (some position)
  | .other number => some number

/-- The position the host uses; a negative one is the current position. -/
def Position.accepted : Position → Option Nat
  | .integer position => if 0 ≤ position then some position.toNat else none
  | _ => none

def Position.odd : Position → Bool
  | .other _ => true
  | _ => false

inductive Op where
  | access (path : PathArg)
  | exist (path : PathArg)
  | stat (path : PathArg)
  | lstat (path : PathArg)
  | realpath (path : PathArg)
  | readlink (path : PathArg)
  | readdir (path : PathArg) (recursive withFileTypes : Bool)
  | statfs (path : PathArg)
  | mkdir (path : PathArg) (recursive : Bool) (mode : Nat)
  | mkdtemp (path : PathArg)
  | rmdir (path : PathArg)
  | rm (path : PathArg) (recursive force : Bool)
  | unlink (path : PathArg)
  | rename (source dest : PathArg)
  | copyFile (source dest : PathArg) (excl : Bool)
  | link (source dest : PathArg)
  | symlink (target : PathText) (path : PathArg)
  | chmod (path : PathArg) (mode : Nat)
  | chown (path : PathArg) (uid gid : Nat)
  | lchown (path : PathArg) (uid gid : Nat)
  | utimes (path : PathArg) (atime mtime : Nat)
  | lutimes (path : PathArg) (atime mtime : Nat)
  | truncate (path : PathArg) (length : Length)
  | open (path : PathArg) (flags : FlagsArg) (mode : Nat)
  | readFile (path : PathArg) (flags : FlagsArg)
  | writeFile (path : PathArg) (bytes : List UInt8) (flags : FlagsArg) (mode : Nat)
  | close (fd : Nat)
  | read (fd : Nat) (length : Amount Int) (position : Position)
  | write (fd : Nat) (bytes : List UInt8) (position : Position)
  | fstat (fd : Nat)
  | ftruncate (fd : Nat) (length : Length)
  | fsync (fd : Nat)
  | fdatasync (fd : Nat)
  | fchmod (fd : Nat) (mode : Nat)
  | fchown (fd : Nat) (uid gid : Nat)
  | futimes (fd : Nat) (atime mtime : Nat)
  deriving DecidableEq

inductive Value where
  | undefined
  | bool (value : Bool)
  | stats (st : Stats)
  /-- The stats of a directory above the roots. -/
  | ancestorStats
  | statfs
  | path (path : Path)
  | text (text : PathText)
  | names (names : List Path)
  | dirents (entries : List (Name × Option Kind × Path))
  | fd (fd : Nat)
  | bytes (bytes : List UInt8)
  | count (count : Nat)
  deriving DecidableEq

end Arguments

/-! Operations that look. -/
section Looking

variable (b : Broker)

def access (path : PathArg) : Code Value := do
  let p ← place b path .r "access" true
  match p.host with
  | none => return .bool true
  | some host => runOn p "access" none do
      let _ ← fsCall "access" (.look host true)
      return .bool true

def exist (path : PathArg) : Code Value :=
  tryCatch (do
    let p ← place b path .r "access" true
    match p.host with
    | none => return .bool true
    | some host => do
        let _ ← fsCall "access" (.look host true)
        return .bool true) fun _ => return .bool false

def statsOf (reply : Reply) : Code Value :=
  match reply with
  | .seen _ node inode links => return .stats ⟨node, inode, links⟩
  | _ => throw typeError

/-- `stat` and `lstat`. -/
def statWith (syscall : String) (follow : Bool) (path : PathArg) : Code Value := do
  let p ← place b path .r syscall follow
  match p.host with
  | none => return .ancestorStats
  | some host => runOn p syscall none do statsOf (← fsCall syscall (.look host follow))

def stat : PathArg → Code Value := statWith b "stat" true
def lstat : PathArg → Code Value := statWith b "lstat" false

def realpathOp (path : PathArg) : Code Value := do
  let p ← place b path .r "realpath" true
  match p.host with
  | none => return .path p.virtual
  | some host => runOn p "realpath" none do
      match ← fsCall "realpath" (.look host true) with
      | .seen location _ _ _ => return .path (out b location p)
      | _ => throw typeError

def readlink (path : PathArg) : Code Value := do
  let p ← place b path .r "readlink" false
  runOn p "readlink" none do
    let host ← hostOf p
    match ← fsCall "readlink" (.look host false) with
    | .seen _ ⟨_, .link target⟩ _ _ =>
        if target.absolute then
          match toVirtual b.ns (resolveText [] target) with
          | some virtual => return .path virtual
          | none => return .text target
        else return .text target
    | _ => throw ⟨.EINVAL, "", none, none⟩

/-- The host's listing of a placed directory; more than `maxEntries` are refused. -/
def scandir (p : Placed) (recursive withFileTypes : Bool) : Code Value :=
  runOn p "scandir" none do
    let host ← hostOf p
    match ← fsCall "scandir" (.list host recursive) with
    | .listing location entries => do
        refuseIf (b.maxEntries < entries.length) (nodeError .ENOBUFS "scandir" p.virtual)
        return if withFileTypes then
          .dirents (entries.map fun entry =>
            (entry.1.getLast?.getD "", some entry.2.kind,
              out b (host ++ entry.1.dropLast.drop location.length) p))
        else .names (entries.map fun entry => entry.1.drop location.length)
    | _ => throw typeError

def readdir (path : PathArg) (recursive withFileTypes : Bool) : Code Value := do
  let p ← place b path .r "scandir" true
  match p with
  | .above virtual kids =>
      return if withFileTypes then
        .dirents (kids.map fun k => (k.name, if k.type = .file then some .file else some .dir, virtual))
      else .names (kids.map fun k => [k.name])
  | _ => scandir b p recursive withFileTypes

def statfs (path : PathArg) : Code Value := do
  let p ← place b path .r "statfs" true
  runOn p "statfs" none do
    let host ← hostOf p
    let _ ← fsCall "statfs" (.look host true)
    return .statfs

end Looking

/-! Operations that change names. -/
section Names

variable (b : Broker)

/-- The missing names above a path, as a recursive mkdir counts them. -/
def missingAbove (stop : Path) : Nat → Path → Code Nat
  | 0, _ => pure 0
  | fuel + 1, host =>
      if host = stop then pure 0
      else do
        match ← lstatOrNull host with
        | some _ => return 0
        | none => do
            let more ← missingAbove stop fuel (dirname host)
            return more + 1

def missingNames (recursive : Bool) (placed : Placed) : Code Nat :=
  match placed with
  | .rooted site =>
      if counts b placed && recursive then
        missingAbove site.within.host (site.host.length + 1) site.host
      else pure 1
  | _ => pure 1

def made (recursive : Bool) (placed : Placed) (reply : Reply) : Value :=
  match reply with
  | .made (some first) => if recursive then .path (out b first placed) else .undefined
  | _ => .undefined

def mkdir (path : PathArg) (recursive : Bool) (mode : Nat) : Code Value := do
  let p ← place b path .w "mkdir" false
  let missing ← missingNames b recursive p
  counted b p (some 0) (some missing) "mkdir"
    (runOn p "mkdir" none do
      let host ← hostOf p
      let reply ← fsCall "mkdir" (.mkdir host recursive mode)
      return made b recursive p reply)
    (some 0, some missing)

def mkdtemp (path : PathArg) : Code Value := do
  let p ← place b path .w "mkdtemp" false
  counted b p (some 0) (some 1) "mkdtemp"
    (runOn p "mkdtemp" none do
      let host ← hostOf p
      let reply ← fsCall "mkdtemp" (.mkdtemp host)
      return made b true p reply)
    (some 0, some 1)

def rmdir (path : PathArg) : Code Value := do
  let p ← place b path .w "rmdir" false
  refuseIf (isRoot p) (nodeError .EBUSY "rmdir" p.virtual)
  runOn p "rmdir" none do
    let host ← hostOf p
    let _ ← fsCall "rmdir" (.rmdir host)
  release b p ⟨0, 1⟩
  return .undefined

/-- `rm` and `unlink`: what is removed is measured first. -/
def removing (syscall : String) (call : Path → Call) (path : PathArg) : Code Value := do
  let p ← place b path .w syscall false
  refuseIf (isRoot p) (nodeError .EBUSY syscall p.virtual)
  let host ← hostOf p
  let usage ← measured b p host
  runOn p syscall none do
    let _ ← fsCall syscall (call host)
  release b p usage
  return .undefined

def rm (path : PathArg) (recursive force : Bool) : Code Value :=
  removing b "rm" (fun host => .rm host recursive force) path

def unlink (path : PathArg) : Code Value := removing b "unlink" .unlink path

/-- The root of a placed path, by which `rename` and `link` compare. -/
def rootOf : Placed → Option Root
  | .rooted site => some site.root
  | _ => none

def rename (source dest : PathArg) : Code Value := do
  let source ← place b source .w "rename" false
  let dest ← place b dest .w "rename" false
  refuseIf (isRoot source || isRoot dest) (pairError .EBUSY "rename" source dest)
  refuseIf ((rootOf source).isSome && (rootOf dest).isSome && rootOf source != rootOf dest)
    (pairError .EXDEV "rename" source dest)
  let sourceHost ← hostOf source
  let destHost ← hostOf dest
  let replaced ← measuredReplaced b dest sourceHost destHost
  runOn source "rename" (some dest) do
    let _ ← fsCall "rename" (.rename sourceHost destHost)
  release b dest replaced
  return .undefined

def link (source dest : PathArg) : Code Value := do
  let source ← place b source .r "link" false
  let dest ← place b dest .w "link" false
  let touches := (rootOf source).isSome || (rootOf dest).isSome
  let allowed := (rootOf source).isSome && rootOf source = rootOf dest && (rootOf dest).any Root.writable
  refuseIf (touches && !allowed) (pairError .EPERM "link" source dest)
  counted b dest (some 0) (some 1) "link"
    (runOn source "link" (some dest) do
      let sourceHost ← hostOf source
      let destHost ← hostOf dest
      let _ ← fsCall "link" (.link sourceHost destHost)
      return .undefined)
    (some 0, some 1)

/-- The link rule: a relative target that stays, by its text, inside the root. -/
def linkRefused (target : PathText) (placed : Placed) : Bool :=
  match placed with
  | .rooted site =>
      target.absolute || !inside (resolveText (dirname site.virtual) target) site.within.vroot
  | _ => false

def symlink (target : PathText) (path : PathArg) : Code Value := do
  let place ← place b path .w "symlink" false
  refuseIf (linkRefused target place) ⟨.EPERM, "symlink", some target, some (textOf place.virtual)⟩
  counted b place (some 0) (some 1) "symlink"
    (runOn place "symlink" none do
      let host ← hostOf place
      let _ ← fsCall "symlink" (.symlink target host)
      return .undefined)
    (some 0, some 1)

end Names

/-! Attributes and sizes by path. -/
section Attributes

variable (b : Broker)

/-- `chmod`, `chown`, `utimes` and their no-follow forms. -/
def attrsWith (syscall : String) (follow : Bool) (edit : AttrEdit) (path : PathArg) : Code Value := do
  let p ← place b path .w syscall follow
  runOn p syscall none do
    let host ← hostOf p
    let _ ← fsCall syscall (.attrs host follow edit)
    return .undefined

def permissionBits (mode : Nat) : Nat := mode % 0o1000

def chmod (path : PathArg) (mode : Nat) : Code Value :=
  attrsWith b "chmod" true (.mode (permissionBits mode)) path
def chown (path : PathArg) (uid gid : Nat) : Code Value := attrsWith b "chown" true (.owner uid gid) path
def lchown (path : PathArg) (uid gid : Nat) : Code Value := attrsWith b "lchown" false (.owner uid gid) path
def utimes (path : PathArg) (atime mtime : Nat) : Code Value :=
  attrsWith b "utime" true (.times atime mtime) path
def lutimes (path : PathArg) (atime mtime : Nat) : Code Value :=
  attrsWith b "lutime" false (.times atime mtime) path

def truncate (path : PathArg) (length : Length) : Code Value := do
  let p ← place b path .w "open" true
  let host ← hostOf p
  let st ← statIf (counts b p) host
  let size : Amount Int := some (sizeOf? st : Int)
  let growth := atLeastZero (minus length.number size)
  counted b p growth (some 0) "open"
    (runOn p "open" none do
      let _ ← fsCall "open" (.truncate host length.accepted)
      return .undefined)
    (minus length.number size, some 0)

end Attributes

/-! Open files. -/
section Files

variable (b : Broker)

def openFlags (flags : FlagsArg) : Code OpenFlags :=
  match numericFlags flags with
  | some flags => pure flags
  | none => throw ⟨.EINVAL, "open", none, none⟩

/-- Every open is non-blocking, so what the file turned out to be decides the rest. -/
def refuseSpecial (handle : Nat) (p : Placed) (st : Stats) : Code Unit :=
  onlyIf (!st.isFile && !st.isDirectory) do
    report b .special p.virtual
    onlyIf b.enforce do
      fhClose handle
      throw (nodeError .EPERM "open" p.virtual)

/-- Truncating gives the old size back. -/
def truncateOpened (handle : Nat) (p : Placed) (flags : OpenFlags) (counted : Bool) (st : Stats) :
    Code Unit :=
  onlyIf (flags.trunc && st.isFile) do
    runOn p "open" none do
      let _ ← fhCall "ftruncate" handle (.truncate (some 0))
    onlyIf (counted && st.size ≠ 0)
      (settle (some 0) (some 0) (some (-(st.size : Int))) (some 0))

/-- What `open` does with the file it got. -/
def finishOpen (handle : Nat) (p : Placed) (flags : OpenFlags) (counted : Bool) : Code Nat := do
  verifyOpened b handle p "open" (writes flags)
  let st ← fhStat handle
  refuseSpecial b handle p st
  truncateOpened handle p flags counted st
  fdSet ⟨handle, p, 0, flags.append, counted⟩

def openFile (path : PathArg) (flagsArg : FlagsArg) (mode : Nat) : Code Nat := do
  let flags ← openFlags flagsArg
  let p ← place b path (if writes flags then .w else .r) "open" true
  match p.host with
  | none => throw (nodeError .EISDIR "open" p.virtual)
  | some host => do
      let size ← fdSize
      refuseIf (maxFds ≤ size) (nodeError .EMFILE "open" p.virtual)
      let counted := counts b p
      let before ← lstatIf counted host
      let newEntry := counted && before.isNone && flags.creat
      onlyIf newEntry (reserve (some 0) (some 1) "open" p)
      -- opened without O_TRUNC; truncated once verified
      let handle ← tryCatch (fsOpen host { flags with trunc := false } mode) fun e => do
        onlyIf newEntry (settle (some 0) (some 1) (some 0) (some 0))
        throw (rewrite e "open" p none)
      finishOpen b handle p flags counted

def openOp (path : PathArg) (flags : FlagsArg) (mode : Nat) : Code Value := do
  let fd ← openFile b path flags mode
  return .fd fd

def fdEntry (fd : Nat) (syscall : String) : Code Entry := do
  let live ← fdHas fd
  refuseIf (!live) ⟨.EBADF, syscall, none, none⟩
  match ← fdGet fd with
  | some entry => return entry
  | none => throw ⟨.EBADF, syscall, none, none⟩

/-- Reads to the end in pieces of 64 KiB; each piece has a byte at least, so the
rounds are bounded by the largest size that is answered. -/
def readRest (handle : Nat) (p : Placed) : Nat → List UInt8 → Code (List UInt8)
  | 0, bytes => pure bytes
  | rounds + 1, bytes => do
      let piece ← runOn p "read" none (fhRead handle none (64 * 1024))
      if piece.isEmpty then return bytes
      else do
        refuseIf (maxIo < (bytes ++ piece).length) (nodeError .EFBIG "read" p.virtual)
        readRest handle p rounds (bytes ++ piece)

def orRead : FlagsArg → FlagsArg
  | .omitted => .text "r"
  | flags => flags

def orWrite : FlagsArg → FlagsArg
  | .omitted => .text "w"
  | flags => flags

def readFile (path : PathArg) (flags : FlagsArg) : Code Value := do
  let fd ← openFile b path (orRead flags) 0o666
  match ← fdGet fd with
  | none => throw typeError
  | some e => Prog.ensure (do
      let bytes ← readRest e.handle e.placed (maxIo + 1) []
      return .bytes bytes) do
        fdDelete fd
        fhClose e.handle

def close (fd : Nat) : Code Value := do
  let e ← fdEntry fd "close"
  fdDelete fd
  fhClose e.handle
  return .undefined

/-- A read of no bytes is answered before its position is looked at. -/
def fhReadAt (handle : Nat) (position : Position) (length : Nat) : Code (List UInt8) := do
  refuseIf (position.odd && length ≠ 0) typeError
  fhRead handle position.accepted length

def writeAt (e : Entry) (size : Nat) (position : Position) : Amount Int :=
  match position.number with
  | some number => number
  | none => some (if e.append then size else e.pos)

def write (fd : Nat) (bytes : List UInt8) (position : Position) : Code Nat := do
  let e ← fdEntry fd "write"
  refuseIf (maxIo < bytes.length) (nodeError .EINVAL "write" e.placed.virtual)
  let counted := e.counts && b.counting
  let size ← sizeIf counted e.handle
  let start := if counted then writeAt e size position else some 0
  let growth (count : Nat) := atLeastZero (minus (plus start (some count)) (some (size : Int)))
  onlyIf counted (reserve (growth bytes.length) (some 0) "write" e.placed)
  let written ← tryCatch (fhWrite e.handle position.accepted bytes) fun error => do
    onlyIf counted (settle (growth bytes.length) (some 0) (some 0) (some 0))
    throw (rewrite error "write" e.placed none)
  onlyIf counted (settle (growth bytes.length) (some 0) (growth written) (some 0))
  onlyIf position.number.isNone
    (setPos fd ((if counted && e.append then size else e.pos) + written))
  return written

def writeOp (fd : Nat) (bytes : List UInt8) (position : Position) : Code Value := do
  let written ← write b fd bytes position
  return .count written

/-- Every write takes a byte at least, so the rounds are bounded by the bytes. -/
def writeRest (fd : Nat) : Nat → List UInt8 → Code Unit
  | 0, _ => pure ()
  | rounds + 1, bytes =>
      if bytes.isEmpty then pure ()
      else do
        let count ← write b fd bytes .omitted
        if count = 0 then pure () else writeRest fd rounds (bytes.drop count)

def argText : PathArg → Option PathText
  | .text path => some path
  | _ => none

def writeFile (path : PathArg) (bytes : List UInt8) (flags : FlagsArg) (mode : Nat) : Code Value := do
  refuseIf (maxIo < bytes.length) ⟨.EINVAL, "write", argText path, none⟩
  let fd ← openFile b path (orWrite flags) mode
  Prog.ensure (do
    writeRest b fd bytes.length bytes
    return .undefined) do
      let _ ← close fd
      pure ()

def read (fd : Nat) (length : Amount Int) (position : Position) : Code Value := do
  let e ← fdEntry fd "read"
  match length with
  | none => throw (nodeError .EINVAL "read" e.placed.virtual)
  | some size => do
      refuseIf (size < 0 || (maxIo : Int) < size) (nodeError .EINVAL "read" e.placed.virtual)
      let bytes ← runOn e.placed "read" none (fhReadAt e.handle position size.toNat)
      onlyIf position.number.isNone (setPos fd (e.pos + bytes.length))
      return .bytes bytes

def fstat (fd : Nat) : Code Value := do
  let e ← fdEntry fd "fstat"
  let st ← fhStat e.handle
  return .stats st

def ftruncate (fd : Nat) (length : Length) : Code Value := do
  let e ← fdEntry fd "ftruncate"
  if e.counts && b.counting then do
    let st ← fhStat e.handle
    let change := minus length.number (some (st.size : Int))
    let growth := atLeastZero change
    reserve growth (some 0) "ftruncate" e.placed
    let _ ← tryCatch (fhCall "ftruncate" e.handle (.truncate length.accepted)) fun error => do
      settle growth (some 0) (some 0) (some 0)
      throw error
    settle growth (some 0) change (some 0)
    return .undefined
  else do
    let _ ← fhCall "ftruncate" e.handle (.truncate length.accepted)
    return .undefined

/-- `fsync`, `fdatasync`, `fchmod`, `fchown` and `futimes`: one call on the file. -/
def onDescriptor (syscall : String) (act : FdAct) (fd : Nat) : Code Value := do
  let e ← fdEntry fd syscall
  let _ ← fhCall syscall e.handle act
  return .undefined

def fsync : Nat → Code Value := onDescriptor "fsync" .sync
def fdatasync : Nat → Code Value := onDescriptor "fdatasync" .sync
def fchmod (fd mode : Nat) : Code Value := onDescriptor "fchmod" (.attrs (.mode (permissionBits mode))) fd
def fchown (fd uid gid : Nat) : Code Value := onDescriptor "fchown" (.attrs (.owner uid gid)) fd
def futimes (fd atime mtime : Nat) : Code Value := onDescriptor "futime" (.attrs (.times atime mtime)) fd

end Files

/-! Copying. -/
section Copy

variable (b : Broker)

def writeAll (handle : Nat) : Nat → List UInt8 → Code Unit
  | 0, _ => pure ()
  | rounds + 1, bytes =>
      if bytes.isEmpty then pure ()
      else do
        let count ← fhWrite handle none bytes
        writeAll handle rounds (bytes.drop count)

/-- One piece of a megabyte after another, until a read is empty. -/
def copyPieces (src dst : Nat) : Nat → Code Unit
  | 0 => pure ()
  | rounds + 1 => do
      let piece ← fhRead src none (1024 * 1024)
      if piece.isEmpty then pure ()
      else do
        writeAll dst piece.length piece
        copyPieces src dst rounds

def copyInto (excl : Bool) (source dest : Placed) (src : Nat) : Code Unit := do
  let st ← fhStat src
  refuseIf (!st.isFile) (pairError .EPERM "copyfile" source dest)
  verifyOpened b src source "copyfile" false
  let destHost ← hostOf dest
  let dst ← runOn source "copyfile" (some dest)
    (fsOpen destHost { wronly := true, creat := true, excl := excl } (permissionBits st.inode.attrs.mode))
  Prog.ensure (do
    verifyOpened b dst dest "copyfile" true
    let _ ← fhCall "ftruncate" dst (.truncate (some 0))
    copyPieces src dst (st.size + 1)) (fhClose dst)

def copy (excl : Bool) (source dest : Placed) : Code Value := do
  let src ← runOn source "copyfile" (some dest) do
    let sourceHost ← hostOf source
    fsOpen sourceHost {} 0
  Prog.ensure (do
    copyInto b excl source dest src
    return .undefined) (fhClose src)

def copyFile (source dest : PathArg) (excl : Bool) : Code Value := do
  let source ← place b source .r "copyfile" true
  let dest ← place b dest .w "copyfile" true
  if counts b dest then do
    let src ← orNull (do
      let sourceHost ← hostOf source
      fsStat sourceHost)
    let destHost ← hostOf dest
    let dst ← lstatOrNull destHost
    let old := match dst with
      | some st => if st.isFile then st.size else 0
      | none => 0
    let bytes : Amount Int := some ((sizeOf? src : Int) - old)
    let entries : Amount Int := some (if dst.isNone then 1 else 0)
    counted b dest bytes entries "copyfile" (copy b excl source dest) (bytes, entries)
  else copy b excl source dest

end Copy

/-! Handling one call. -/
section Handle

variable (b : Broker)

inductive Lock where
  | shared | exclusive | none
  deriving DecidableEq

def openLock (flags : FlagsArg) : Option Lock :=
  (numericFlags flags).map fun flags => if creates flags then .exclusive else .shared

/-- `none` is the EINVAL of unknown flags. -/
def lockOf : Op → Option Lock
  | .access _ | .exist _ | .stat _ | .lstat _ | .realpath _ | .readlink _ | .readdir _ _ _ | .statfs _ =>
      some .shared
  | .open _ flags _ => openLock flags
  | .readFile _ flags => openLock flags
  | .writeFile _ _ flags _ => openLock flags
  | .close _ | .read _ _ _ | .write _ _ _ | .fstat _ | .ftruncate _ _ | .fsync _ | .fdatasync _
  | .fchmod _ _ | .fchown _ _ _ | .futimes _ _ _ => some .none
  | _ => some .exclusive

def runOp : Op → Code Value
  | .access path => access b path
  | .exist path => exist b path
  | .stat path => stat b path
  | .lstat path => lstat b path
  | .realpath path => realpathOp b path
  | .readlink path => readlink b path
  | .readdir path recursive withFileTypes => readdir b path recursive withFileTypes
  | .statfs path => statfs b path
  | .mkdir path recursive mode => mkdir b path recursive mode
  | .mkdtemp path => mkdtemp b path
  | .rmdir path => rmdir b path
  | .rm path recursive force => rm b path recursive force
  | .unlink path => unlink b path
  | .rename source dest => rename b source dest
  | .copyFile source dest excl => copyFile b source dest excl
  | .link source dest => link b source dest
  | .symlink target path => symlink b target path
  | .chmod path mode => chmod b path mode
  | .chown path uid gid => chown b path uid gid
  | .lchown path uid gid => lchown b path uid gid
  | .utimes path atime mtime => utimes b path atime mtime
  | .lutimes path atime mtime => lutimes b path atime mtime
  | .truncate path length => truncate b path length
  | .open path flags mode => openOp b path flags mode
  | .readFile path flags => readFile b path flags
  | .writeFile path bytes flags mode => writeFile b path bytes flags mode
  | .close fd => close fd
  | .read fd length position => read fd length position
  | .write fd bytes position => writeOp b fd bytes position
  | .fstat fd => fstat fd
  | .ftruncate fd length => ftruncate b fd length
  | .fsync fd => fsync fd
  | .fdatasync fd => fdatasync fd
  | .fchmod fd mode => fchmod fd mode
  | .fchown fd uid gid => fchown fd uid gid
  | .futimes fd atime mtime => futimes fd atime mtime

def opName : Op → String
  | .access _ => "access"
  | .exist _ => "exists"
  | .stat _ => "stat"
  | .lstat _ => "lstat"
  | .realpath _ => "realpath"
  | .readlink _ => "readlink"
  | .readdir _ _ _ => "readdir"
  | .statfs _ => "statfs"
  | .mkdir _ _ _ => "mkdir"
  | .mkdtemp _ => "mkdtemp"
  | .rmdir _ => "rmdir"
  | .rm _ _ _ => "rm"
  | .unlink _ => "unlink"
  | .rename _ _ => "rename"
  | .copyFile _ _ _ => "copyFile"
  | .link _ _ => "link"
  | .symlink _ _ => "symlink"
  | .chmod _ _ => "chmod"
  | .chown _ _ _ => "chown"
  | .lchown _ _ _ => "lchown"
  | .utimes _ _ _ => "utimes"
  | .lutimes _ _ _ => "lutimes"
  | .truncate _ _ => "truncate"
  | .open _ _ _ => "open"
  | .readFile _ _ => "readFile"
  | .writeFile _ _ _ _ => "writeFile"
  | .close _ => "close"
  | .read _ _ _ => "read"
  | .write _ _ _ => "write"
  | .fstat _ => "fstat"
  | .ftruncate _ _ => "ftruncate"
  | .fsync _ => "fsync"
  | .fdatasync _ => "fdatasync"
  | .fchmod _ _ => "fchmod"
  | .fchown _ _ _ => "fchown"
  | .futimes _ _ _ => "futimes"

/-- A call with the lock it needs held. An exclusive one starts with an empty cache. -/
def handleOne (op : Op) : Code Value := do
  let closed ← isClosed
  refuseIf closed ⟨.EIOERROR, opName op, none, none⟩
  match lockOf op with
  | none => throw ⟨.EINVAL, "open", none, none⟩
  | some lock => do
      onlyIf (lock = .exclusive) (cacheClear)
      runOp b op

/-- A sequence of calls, one after another. -/
def runAll : List Op → World → World
  | [], world => world
  | op :: rest, world => runAll rest ((handleOne b op).run handle world).2

/-- The worlds between the calls, with the call made in each. -/
def calls : List Op → World → List (World × Op)
  | [], _ => []
  | op :: rest, world => (world, op) :: calls rest ((handleOne b op).run handle world).2

/-- Every action of a sequence of calls, with the world it was done in. -/
def actions (ops : List Op) (world : World) : List (World × Act) :=
  (calls b ops world).flatMap fun entry => (handleOne b entry.2).trace handle entry.1

end Handle

/-! A small installation on a host where every call succeeds. -/
section Small

def smallConfig : Config := ⟨["srv", "app"], ["srv", "data"], ["srv", "tmp"], [], [["opt"]], []⟩

def smallNames : Names :=
  [(["srv"], ⟨1, .dir⟩), (["srv", "app"], ⟨2, .dir⟩), (["srv", "data"], ⟨3, .dir⟩),
    (["srv", "tmp"], ⟨4, .dir⟩)]

def smallBroker (config : Config) (names : Names) : Broker :=
  ⟨prepare config names, .enforce, ["app"], 100, true⟩

theorem small_limit : (0 : Int) ≤ 100 := by
  decide

def smallWorld (names : Names) : World :=
  World.fresh ⟨names, fun _ => ⟨[], freshAttrs 0o644⟩, 100⟩
    (DiskQuota.opened 1000 100 true 0 0 (by decide) small_limit) fun _ => ⟨none, none, "Ab3dE9", 1⟩

/-- The argument that names an absolute path. -/
def absolute (path : Path) : PathArg := .text (textOf path)

theorem small_names_hold_no_links {location : Path} {ino : Nat} {target : PathText} :
    lookup smallNames location ≠ some ⟨ino, .link target⟩ := by
  intro found
  have member := mem_of_names_lookup found
  simp [smallNames] at member

end Small

end Countinghouse.FsBroker
