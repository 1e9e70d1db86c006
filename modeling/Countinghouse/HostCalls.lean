import Countinghouse.HostTree

/-!
The host's file operations on a tree of names and a table of inodes.

A call first decides what it would do (`Effect`: names added, dropped or moved,
inodes written, and the locations it touches) and the effect is then applied, so
that what a call can change is read off its effect. A call may fail at any time
(`Fault`); only the recursive calls can then have done a part of their work.
-/

namespace Countinghouse.HostCalls

open HostTree

structure Attrs where
  mode : Nat
  uid : Nat
  gid : Nat
  atime : Nat
  mtime : Nat
  deriving DecidableEq

structure Inode where
  bytes : List UInt8
  attrs : Attrs
  deriving DecidableEq

def Inode.size (inode : Inode) : Nat := inode.bytes.length

structure Host where
  names : Names
  inodes : Nat → Inode
  nextIno : Nat

/-- The inode number of the root directory, which has no name. -/
def rootIno : Nat := 0

def nodeAt (names : Names) (location : Path) : Option Node :=
  if location.isEmpty then some ⟨rootIno, .dir⟩ else lookup names location

/-- The number of names of an inode. -/
def nlink (names : Names) (ino : Nat) : Nat := (names.filter fun entry => entry.2.ino == ino).length

/-- One change to the names. `drop` removes a name and all below it, except
what leads to a spared name. -/
inductive Change where
  | add (location : Path) (node : Node)
  | drop (location : Path) (spared : List Path)
  | move (source dest : Path)
  deriving DecidableEq

def dropped (location : Path) (spared : List Path) (path : Path) : Bool :=
  inside path location && !spared.any fun kept => inside kept path

def moved (source dest path : Path) : Path :=
  if inside path source then dest ++ path.drop source.length else path

def Change.apply (names : Names) : Change → Names
  | .add location node => (location, node) :: names
  | .drop location spared => names.filter fun entry => !dropped location spared entry.1
  | .move source dest =>
      (names.filter fun entry => !inside entry.1 dest).map fun entry =>
        (moved source dest entry.1, entry.2)

structure Effect where
  changes : List Change
  /-- New contents of inodes, a created one included. -/
  edits : List (Nat × Inode)
  created : Nat
  touched : List Path

def Effect.none : Effect := ⟨[], [], 0, []⟩

def setInode (inodes : Nat → Inode) (edit : Nat × Inode) : Nat → Inode :=
  fun ino => if ino = edit.1 then edit.2 else inodes ino

def Host.apply (host : Host) (effect : Effect) : Host where
  names := effect.changes.foldl Change.apply host.names
  inodes := effect.edits.foldl setInode host.inodes
  nextIno := host.nextIno + effect.created

/-- How a host call fails: after `steps` directories of a recursive mkdir, or with
the `spared` names of a recursive rm still there. -/
structure Fault where
  code : Errno
  steps : Nat
  spared : List Path

/-- What the environment decides about one call: whether it fails, how much of a
write it takes (at least one byte), the random end of a temporary name, and how
long it lasts. -/
structure Chance where
  fault : Option Fault
  short : Option Nat
  suffix : Name
  wait : Nat

/-! Where a call acts. -/

/-- The location a path names without following its last component: the real
path of its directory and its own name. -/
def leaf (names : Names) (path : Path) : Except Errno Path :=
  match path.getLast? with
  | none => .ok []
  | some name =>
      match resolve names path.dropLast with
      | .found dir _ => if isDir names dir then .ok (dir ++ [name]) else .error .ENOTDIR
      | .missing _ _ => .error .ENOENT
      | .failed code => .error code

/-- The location an existing object has for a call that follows the last
component, or does not. -/
def place (names : Names) (path : Path) (follow : Bool) : Except Errno Path :=
  if follow then realpath names path
  else
    match leaf names path with
    | .ok location => if (nodeAt names location).isSome then .ok location else .error .ENOENT
    | .error code => .error code

def below (names : Names) (location : Path) : Names :=
  names.filter fun entry => inside entry.1 location && entry.1 != location

def children (names : Names) (location : Path) : Names :=
  names.filter fun entry => !entry.1.isEmpty && entry.1.dropLast == location

/-- The bits of an open call that matter here; a number or a string of flags
is read into them. -/
structure OpenFlags where
  wronly : Bool := false
  rdwr : Bool := false
  creat : Bool := false
  excl : Bool := false
  trunc : Bool := false
  append : Bool := false
  nofollow : Bool := false
  directory : Bool := false
  deriving DecidableEq

/-- An open file: its inode, the name it was opened by as far as it still has one,
and the position of calls without one. -/
structure OpenFile where
  ino : Nat
  kind : Kind
  location : Option Path
  readable : Bool
  writable : Bool
  append : Bool
  offset : Nat
  deriving DecidableEq

inductive AttrEdit where
  | mode (mode : Nat)
  | owner (uid gid : Nat)
  | times (atime mtime : Nat)
  deriving DecidableEq

def AttrEdit.apply (attrs : Attrs) : AttrEdit → Attrs
  | .mode bits => { attrs with mode := bits }
  | .owner uid gid => { attrs with uid := uid, gid := gid }
  | .times atime mtime => { attrs with atime := atime, mtime := mtime }

inductive FdAct where
  | read (position : Option Nat) (length : Nat)
  | write (position : Option Nat) (bytes : List UInt8)
  /-- A length that is not an integer is refused. -/
  | truncate (length : Option Int)
  | attrs (edit : AttrEdit)
  | stat
  | sync
  deriving DecidableEq

inductive Call where
  | look (path : Path) (follow : Bool)
  | list (path : Path) (recursive : Bool)
  | mkdir (path : Path) (recursive : Bool) (mode : Nat)
  | mkdtemp (path : Path)
  | rmdir (path : Path)
  | rm (path : Path) (recursive force : Bool)
  | unlink (path : Path)
  | rename (source dest : Path)
  | link (source dest : Path)
  | symlink (target : PathText) (path : Path)
  | attrs (path : Path) (follow : Bool) (edit : AttrEdit)
  | truncate (path : Path) (length : Option Int)
  | openFile (path : Path) (flags : OpenFlags) (mode : Nat)
  | descriptor (file : OpenFile) (act : FdAct)
  deriving DecidableEq

inductive Reply where
  | done
  | seen (location : Path) (node : Node) (inode : Inode) (links : Nat)
  | listing (location : Path) (entries : List (Path × Node))
  | made (first : Option Path)
  | opened (file : OpenFile)
  | read (bytes : List UInt8) (offset : Nat)
  | wrote (count offset : Nat)
  deriving DecidableEq

abbrev Outcome := Effect × Except Errno Reply

def refuse (code : Errno) : Outcome := (Effect.none, .error code)

def freshAttrs (mode : Nat) : Attrs := ⟨mode, 0, 0, 0, 0⟩

def create (host : Host) (location : Path) (kind : Kind) (mode : Nat) : Effect where
  changes := [.add location ⟨host.nextIno, kind⟩]
  edits := [(host.nextIno, ⟨[], freshAttrs mode⟩)]
  created := 1
  touched := [location]

/-! The calls. -/

def look (host : Host) (path : Path) (follow : Bool) : Outcome :=
  match place host.names path follow with
  | .error code => refuse code
  | .ok location =>
      match nodeAt host.names location with
      | none => refuse .ENOENT
      | some node => ({ Effect.none with touched := [location] },
          .ok (.seen location node (host.inodes node.ino) (nlink host.names node.ino)))

def list (host : Host) (path : Path) (recursive : Bool) : Outcome :=
  match realpath host.names path with
  | .error code => refuse code
  | .ok location =>
      if isDir host.names location then
        let entries := if recursive then below host.names location else children host.names location
        ({ Effect.none with touched := location :: entries.map Prod.fst }, .ok (.listing location entries))
      else refuse .ENOTDIR

def makeDir (host : Host) (path : Path) (mode : Nat) : Outcome :=
  match leaf host.names path with
  | .error code => refuse code
  | .ok location =>
      if (nodeAt host.names location).isSome then refuse .EEXIST
      else (create host location .dir mode, .ok (.made (some path)))

/-- On the way down a path, the location of the first directory there is not, with
the names that follow. -/
def firstMissing (names : Names) (dir : Path) : List Name → Except Errno (Option (Path × List Name))
  | [] => .ok none
  | name :: rest =>
      match resolve names (dir ++ [name]) with
      | .found location _ =>
          if isDir names location then firstMissing names (dir ++ [name]) rest
          else .error (if rest.isEmpty then .EEXIST else .ENOTDIR)
      | .missing _ _ =>
          match leaf names (dir ++ [name]) with
          | .error code => .error code
          | .ok location =>
              -- a dangling link is in the way
              if (lookup names location).isSome then .error .ENOENT else .ok (some (location, rest))
      | .failed code => .error code

/-- New directories one in the other; below a name that is missing there is none. -/
def newDirs (names : Names) (ino : Nat) (location : Path) : List Name → List (Path × Node) × Option Errno
  | [] => ([(location, ⟨ino, .dir⟩)], none)
  | name :: rest =>
      if (lookup names (location ++ [name])).isSome then ([(location, ⟨ino, .dir⟩)], some .EEXIST)
      else
        let later := newDirs names (ino + 1) (location ++ [name]) rest
        ((location, ⟨ino, .dir⟩) :: later.1, later.2)

/-- The directories a recursive mkdir adds, and the error that stops it. -/
def missingDirs (names : Names) (ino : Nat) (path : Path) : List (Path × Node) × Option Errno :=
  match firstMissing names [] path with
  | .error code => ([], some code)
  | .ok none => ([], none)
  | .ok (some (location, rest)) => newDirs names ino location rest

def prefixes (path : Path) : List Path := (List.range path.length).map fun count => path.take (count + 1)

def absent (names : Names) (path : Path) : Bool :=
  match realpath names path with
  | .ok _ => false
  | .error _ => true

def madeDirs (entries : List (Path × Node)) (mode : Nat) : Effect where
  changes := entries.map fun entry => .add entry.1 entry.2
  edits := entries.map fun entry => (entry.2.ino, ⟨[], freshAttrs mode⟩)
  created := entries.length
  touched := entries.map Prod.fst

def makeDirs (host : Host) (path : Path) (mode : Nat) (fault : Option Fault) : Outcome :=
  let plan := missingDirs host.names host.nextIno path
  match fault with
  | some stop => (madeDirs (plan.1.take stop.steps) mode, .error stop.code)
  | none =>
      (madeDirs plan.1 mode,
        match plan.2 with
        | some code => .error code
        | none => .ok (.made ((prefixes path).find? (absent host.names))))

/-- The name mkdtemp appends its random characters to. -/
def suffixed (path : Path) (suffix : Name) : Path :=
  match path.getLast? with
  | none => [suffix]
  | some name => path.dropLast ++ [name ++ suffix]

def removeDir (host : Host) (path : Path) : Outcome :=
  match place host.names path false with
  | .error code => refuse code
  | .ok location =>
      if location.isEmpty then refuse .EBUSY
      else if !isDir host.names location then refuse .ENOTDIR
      else if !(below host.names location).isEmpty then refuse .ENOTEMPTY
      else ({ Effect.none with changes := [.drop location []], touched := [location] }, .ok .done)

def remove (host : Host) (path : Path) (recursive force : Bool) (fault : Option Fault) : Outcome :=
  match place host.names path false with
  | .error code => if force && code = .ENOENT then (Effect.none, .ok .done) else refuse code
  | .ok location =>
      if location.isEmpty then refuse .EBUSY
      else if isDir host.names location && !recursive then refuse .EISDIR
      else
        let effect (spared : List Path) : Effect :=
          { Effect.none with
            changes := [.drop location spared]
            touched := location :: (below host.names location).map Prod.fst }
        match fault with
        | some stop => (effect stop.spared, .error stop.code)
        | none => (effect [], .ok .done)

def unlink (host : Host) (path : Path) : Outcome :=
  match place host.names path false with
  | .error code => refuse code
  | .ok location =>
      if isDir host.names location then refuse .EISDIR
      else ({ Effect.none with changes := [.drop location []], touched := [location] }, .ok .done)

/-- Whether `source` may take the place of what is at `dest`. -/
def replaceable (names : Names) (source dest : Path) : Except Errno Unit :=
  if isDir names source then
    if inside dest source then .error .EINVAL
    else if (nodeAt names dest).isNone then .ok ()
    else if !isDir names dest then .error .ENOTDIR
    else if (below names dest).isEmpty then .ok () else .error .ENOTEMPTY
  else if isDir names dest then .error .EISDIR else .ok ()

/-- Two names of one inode are left as they are. -/
def sameObject (names : Names) (source dest : Path) : Bool :=
  match nodeAt names source, nodeAt names dest with
  | some a, some b => a.ino == b.ino
  | _, _ => false

def rename (host : Host) (source dest : Path) : Outcome :=
  match place host.names source false, leaf host.names dest with
  | .error code, _ => refuse code
  | .ok _, .error code => refuse code
  | .ok src, .ok dst =>
      if src.isEmpty || dst.isEmpty then refuse .EBUSY
      else if sameObject host.names src dst then
        ({ Effect.none with touched := [src, dst] }, .ok .done)
      else
        match replaceable host.names src dst with
        | .error code => refuse code
        | .ok () =>
            ({ Effect.none with
                changes := [.move src dst]
                touched := src :: dst :: (below host.names src).map Prod.fst }, .ok .done)

def link (host : Host) (source dest : Path) : Outcome :=
  match place host.names source false, leaf host.names dest with
  | .error code, _ => refuse code
  | .ok _, .error code => refuse code
  | .ok src, .ok dst =>
      match nodeAt host.names src with
      | none => refuse .ENOENT
      | some node =>
          if node.kind = .dir then refuse .EPERM
          else if (nodeAt host.names dst).isSome then refuse .EEXIST
          else ({ Effect.none with changes := [.add dst node], touched := [src, dst] }, .ok .done)

def symlink (host : Host) (target : PathText) (path : Path) : Outcome :=
  match leaf host.names path with
  | .error code => refuse code
  | .ok location =>
      if target.segs.isEmpty && !target.absolute then refuse .ENOENT
      else if (nodeAt host.names location).isSome then refuse .EEXIST
      else (create host location (.link target) 0o777, .ok .done)

def setAttrs (host : Host) (path : Path) (follow : Bool) (edit : AttrEdit) : Outcome :=
  match place host.names path follow with
  | .error code => refuse code
  | .ok location =>
      match nodeAt host.names location with
      | none => refuse .ENOENT
      | some node =>
          let inode := host.inodes node.ino
          ({ Effect.none with
              edits := [(node.ino, { inode with attrs := edit.apply inode.attrs })]
              touched := [location] }, .ok .done)

def resized (bytes : List UInt8) (size : Nat) : List UInt8 :=
  bytes.take size ++ List.replicate (size - bytes.length) 0

def truncate (host : Host) (path : Path) (length : Option Int) : Outcome :=
  match realpath host.names path, length with
  | .error code, _ => refuse code
  | .ok _, none => refuse .ERR_INVALID_ARG
  | .ok location, some size =>
      match nodeAt host.names location with
      | some ⟨ino, .file⟩ =>
          let inode := host.inodes ino
          ({ Effect.none with
              edits := [(ino, { inode with bytes := resized inode.bytes size.toNat })]
              touched := [location] }, .ok .done)
      | some ⟨_, .dir⟩ => refuse .EISDIR
      | _ => refuse .EINVAL

def openedAs (node : Node) (location : Path) (flags : OpenFlags) : OpenFile where
  ino := node.ino
  kind := node.kind
  location := some location
  readable := !flags.wronly
  writable := flags.wronly != flags.rdwr
  append := flags.append
  offset := 0

def isLink (names : Names) (location : Path) : Bool :=
  match lookup names location with
  | some ⟨_, .link _⟩ => true
  | _ => false

/-- The last component of the path is a link, where the path has one. -/
def leafIsLink (names : Names) (path : Path) : Bool :=
  match leaf names path with
  | .ok location => isLink names location
  | .error _ => false

def createOpened (host : Host) (location : Path) (flags : OpenFlags) (mode : Nat) : Outcome :=
  (create host location .file mode, .ok (.opened (openedAs ⟨host.nextIno, .file⟩ location flags)))

def openExisting (host : Host) (location : Path) (flags : OpenFlags) : Outcome :=
  match nodeAt host.names location with
  | none => refuse .ENOENT
  | some node =>
      if node.kind = .dir && (flags.wronly || flags.rdwr || flags.creat) then refuse .EISDIR
      else if node.kind ≠ .dir && flags.directory then refuse .ENOTDIR
      else ({ Effect.none with touched := [location] },
        .ok (.opened (openedAs node location flags)))

def openFile (host : Host) (path : Path) (flags : OpenFlags) (mode : Nat) : Outcome :=
  if flags.creat && flags.excl then
    match leaf host.names path with
    | .error code => refuse code
    | .ok location =>
        if (nodeAt host.names location).isSome then refuse .EEXIST
        else createOpened host location flags mode
  else if flags.nofollow && leafIsLink host.names path then refuse .ELOOP
  else
    match resolve host.names path with
    | .found location _ => openExisting host location flags
    | .missing location _ =>
        if flags.creat && !flags.directory then createOpened host location flags mode
        else refuse .ENOENT
    | .failed code => refuse code

def written (old : List UInt8) (position : Nat) (bytes : List UInt8) : List UInt8 :=
  resized old position ++ bytes ++ old.drop (position + bytes.length)

def descriptor (host : Host) (file : OpenFile) (short : Option Nat) : FdAct → Outcome
  | .read position length =>
      -- nothing is asked of the host for no bytes
      if length = 0 then (Effect.none, .ok (.read [] file.offset))
      else if !file.readable then refuse .EBADF
      else if file.kind = .dir then refuse .EISDIR
      else
        let start := position.getD file.offset
        let bytes := ((host.inodes file.ino).bytes.drop start).take length
        ({ Effect.none with touched := file.location.toList },
          .ok (.read bytes (if position.isSome then file.offset else start + bytes.length)))
  | .write position bytes =>
      if bytes.isEmpty then (Effect.none, .ok (.wrote 0 file.offset))
      else if !file.writable then refuse .EBADF
      else
        let inode := host.inodes file.ino
        let start := if file.append then inode.size else position.getD file.offset
        let count := match short with
          | some limit => min (limit + 1) bytes.length
          | none => bytes.length
        ({ Effect.none with
            -- a special file takes the bytes and keeps its size
            edits := if file.kind = .special then []
              else [(file.ino, { inode with bytes := written inode.bytes start (bytes.take count) })]
            touched := file.location.toList },
          .ok (.wrote count (if position.isSome then file.offset else start + count)))
  | .truncate none => refuse .ERR_INVALID_ARG
  | .truncate (some size) =>
      if !file.writable then refuse .EINVAL
      else
        let inode := host.inodes file.ino
        ({ Effect.none with
            edits := [(file.ino, { inode with bytes := resized inode.bytes size.toNat })]
            touched := file.location.toList }, .ok .done)
  | .attrs edit =>
      let inode := host.inodes file.ino
      ({ Effect.none with
          edits := [(file.ino, { inode with attrs := edit.apply inode.attrs })]
          touched := file.location.toList }, .ok .done)
  | .stat =>
      ({ Effect.none with touched := file.location.toList },
        .ok (.seen (file.location.getD []) ⟨file.ino, file.kind⟩ (host.inodes file.ino)
          (nlink host.names file.ino)))
  | .sync => ({ Effect.none with touched := file.location.toList }, .ok .done)

/-- A call as the host carries it out. -/
def exec (host : Host) (call : Call) (chance : Chance) : Outcome :=
  match call, chance.fault with
  | .mkdir path true mode, fault => makeDirs host path mode fault
  | .rm path recursive force, fault => remove host path recursive force fault
  | _, some fault => refuse fault.code
  | .look path follow, none => look host path follow
  | .list path recursive, none => list host path recursive
  | .mkdir path false mode, none => makeDir host path mode
  | .mkdtemp path, none => makeDir host (suffixed path chance.suffix) 0o700
  | .rmdir path, none => removeDir host path
  | .unlink path, none => unlink host path
  | .rename source dest, none => rename host source dest
  | .link source dest, none => link host source dest
  | .symlink target path, none => symlink host target path
  | .attrs path follow edit, none => setAttrs host path follow edit
  | .truncate path length, none => truncate host path length
  | .openFile path flags mode, none => openFile host path flags mode
  | .descriptor file act, none => descriptor host file chance.short act

end Countinghouse.HostCalls
