import Mathlib
import Countinghouse.OpenFiles

/-!
What the reads and writes on one counted descriptor are charged, `OPS.read` and
`OPS.write` of lib/fs-broker/broker.js, while nobody else writes the file.

The charge is computed before the write: from the position that is given, the end of
the file for an append descriptor, or the position the broker keeps (`writeAt`). The host
then puts the bytes where it does (`descriptor`).
-/

namespace Countinghouse.WriteCharges

open HostTree HostCalls FileNamespace BrokerWorld FsBroker BrokerChecks BrokerClosing OpenFiles
open Program (Prog)
open DiskQuota (Quota Amount plus minus atLeastZero)

/-! What a call on an open file changes. -/
section Files

variable {world : World} {key : Nat} {file : OpenFile}

theorem resized_length (bytes : List UInt8) (size : Nat) : (resized bytes size).length = size := by
  simp only [resized, List.length_append, List.length_take, List.length_replicate]
  omega

theorem written_length (old bytes : List UInt8) (position : Nat) :
    (written old position bytes).length = max old.length (position + bytes.length) := by
  simp only [written, List.length_append, resized_length, List.length_drop]
  omega

/-- A call that the host refuses. -/
theorem on_file_refused {act : FdAct} {code : Errno} (found : world.file key = some file)
    (refused : world.outcome (.descriptor file act) = refuse code) :
    world.onFile key act = (.error code, world.passed) := by
  simp [World.onFile, found, refused, refuse, applied_none]

theorem outcome_fault {call : Call} {fault : Fault} (failing : world.chance.fault = some fault)
    (onFile : ∃ file act, call = .descriptor file act) : world.outcome call = refuse fault.code := by
  obtain ⟨file, act, rfl⟩ := onFile
  simp [World.outcome, exec, failing]

theorem outcome_descriptor {act : FdAct} (working : world.chance.fault = none) :
    world.outcome (.descriptor file act) = descriptor world.host file world.chance.short act := by
  simp [World.outcome, exec, working]

theorem set_file_lookup {files : List (Nat × OpenFile)} (found : files.lookup key = some file) (new : OpenFile) :
    (setFile files key new).lookup key = some new := by
  induction files with
  | nil => simp at found
  | cons entry rest ih =>
      obtain ⟨other, old⟩ := entry
      by_cases same : other = key
      · subst same
        simp [setFile]
      · have apart : (key == other) = false := by simpa using fun equal : key = other => same equal.symm
        rw [List.lookup_cons, apart] at found
        simpa [setFile, same, List.lookup_cons, apart] using ih found

/-- A call on the file left `file` as it is now and `size` bytes in it; of the rest only time has passed. -/
structure Left (world : World) (key : Nat) (file : OpenFile) (size : Nat) (after : World) : Prop where
  entries : after.entries = world.entries
  quota : after.quota = world.quota
  found : after.file key = some file
  size : (after.host.inodes file.ino).size = size

theorem left_passed (found : world.file key = some file) :
    Left world key file (world.host.inodes file.ino).size world.passed :=
  ⟨rfl, rfl, found, rfl⟩

theorem left_moved (found : world.file key = some file) (offset : Nat) :
    Left world key { file with offset := offset } (world.host.inodes file.ino).size
      { world.passed with files := setFile world.files key { file with offset := offset } } :=
  ⟨rfl, rfl, set_file_lookup found _, rfl⟩

variable {good : World → Act → Prop} {bad : NodeError → World → Prop}

theorem fh_stat_rule {ok : Stats → World → Prop} (found : world.file key = some file)
    (admits : good world (.onFile key .stat)) (fails : ∀ error, bad error world.passed)
    (ends : ∀ st, st.size = (world.host.inodes file.ino).size → st.node = ⟨file.ino, file.kind⟩ → ok st world.passed) :
    (fhStat key).Spec handle good ok bad world := by
  simp only [fhStat, fhCall, Program.spec_bind, try_file_spec]
  refine ⟨admits, ?_⟩
  cases failing : world.chance.fault with
  | some fault =>
      rw [on_file_refused found (outcome_fault failing ⟨file, .stat, rfl⟩)]
      exact fails _
  | none =>
      have seen : world.onFile key .stat =
          (.ok (.seen (file.location.getD []) ⟨file.ino, file.kind⟩ (world.host.inodes file.ino)
            (nlink world.host.names file.ino)), world.passed) := by
        simp [World.onFile, found, outcome_descriptor failing, descriptor, applied_touching]
      rw [seen]
      exact ends _ rfl rfl

/-- A read finds bytes from its start on, and moves the position when none was given. -/
theorem fh_read_rule {ok : List UInt8 → World → Prop} (position : Option Nat) (length : Nat)
    (found : world.file key = some file) (admits : good world (.onFile key (.read position length)))
    (fails : ∀ error, bad error world.passed)
    (ends : ∀ bytes offset after,
      offset = (if position.isSome then file.offset else file.offset + bytes.length) →
      (bytes ≠ [] → file.readable = true ∧ 0 < length ∧
        position.getD file.offset + bytes.length ≤ (world.host.inodes file.ino).size) →
      Left world key { file with offset := offset } (world.host.inodes file.ino).size after → ok bytes after) :
    (fhRead key position length).Spec handle good ok bad world := by
  simp only [fhRead, fhCall, Program.spec_bind, try_file_spec]
  refine ⟨admits, ?_⟩
  cases failing : world.chance.fault with
  | some fault =>
      rw [on_file_refused found (outcome_fault failing ⟨file, _, rfl⟩)]
      exact fails _
  | none =>
      have outcome := @outcome_descriptor _ file (.read position length) failing
      simp only [descriptor] at outcome
      split at outcome
      · have empty : world.onFile key (.read position length) = (.ok (.read [] file.offset),
            { world.passed with files := setFile world.files key { file with offset := file.offset } }) := by
          simp only [World.onFile, found, outcome, applied_none]
          rfl
        rw [empty]
        exact ends [] file.offset _ (by simp) (by simp) (left_moved found _)
      next someLength =>
      split at outcome
      · rw [on_file_refused found outcome]
        exact fails _
      next readable =>
      split at outcome
      · rw [on_file_refused found outcome]
        exact fails _
      · simp only [World.onFile, found, outcome, applied_touching]
        apply ends _ _ _ ?_ ?_ (left_moved found _)
        · cases position with
          | none => simp
          | some start => simp
        · intro some
          refine ⟨by simpa using readable, by omega, ?_⟩
          have within : ((world.host.inodes file.ino).bytes.drop (position.getD file.offset)).take length ≠ [] := some
          have begun : position.getD file.offset < (world.host.inodes file.ino).bytes.length := by
            by_contra beyond
            exact within (by simp [List.drop_eq_nil_of_le (Nat.le_of_not_lt beyond)])
          simp only [Inode.size, List.length_take, List.length_drop]
          omega

/-- Where the host puts the bytes of a write. -/
def writeStart (file : OpenFile) (size : Nat) (position : Option Nat) : Nat :=
  if file.append then size else position.getD file.offset

theorem descriptor_write {host : Host} (short : Option Nat) (position : Option Nat) {bytes : List UInt8}
    (someBytes : bytes ≠ []) (writable : file.writable = true) (ordinary : file.kind ≠ .special) :
    ∃ count ≤ bytes.length, descriptor host file short (.write position bytes) =
      ({ Effect.none with
          edits := [(file.ino, { host.inodes file.ino with
            bytes := written (host.inodes file.ino).bytes
              (writeStart file (host.inodes file.ino).size position) (bytes.take count) })]
          touched := file.location.toList },
        .ok (.wrote count (if position.isSome then file.offset
          else writeStart file (host.inodes file.ino).size position + count))) := by
  have isSome : bytes.isEmpty = false := by simpa using someBytes
  cases short with
  | none => exact ⟨bytes.length, le_refl _, by simp [descriptor, isSome, writable, ordinary, writeStart]⟩
  | some limit =>
      exact ⟨min (limit + 1) bytes.length, min_le_right _ _,
        by simp [descriptor, isSome, writable, ordinary, writeStart]⟩

/-- A write puts its bytes, or the first of them, from its start on. -/
theorem fh_write_rule {ok : Nat → World → Prop} (position : Option Nat) (bytes : List UInt8)
    (found : world.file key = some file) (ordinary : bytes ≠ [] → file.writable = true → file.kind ≠ .special)
    (admits : good world (.onFile key (.write position bytes)))
    (fails : ∀ error, bad error world.passed)
    (empty : ∀ after, bytes = [] →
      Left world key file (world.host.inodes file.ino).size after → ok 0 after)
    (ends : ∀ count offset after, bytes ≠ [] → file.writable = true → count ≤ bytes.length → 
      offset = (if position.isSome then file.offset
        else writeStart file (world.host.inodes file.ino).size position + count) →
      Left world key { file with offset := offset }
        (max (world.host.inodes file.ino).size
          (writeStart file (world.host.inodes file.ino).size position + count)) after → ok count after) :
    (fhWrite key position bytes).Spec handle good ok bad world := by
  simp only [fhWrite, fhCall, Program.spec_bind, try_file_spec]
  refine ⟨admits, ?_⟩
  cases failing : world.chance.fault with
  | some fault =>
      rw [on_file_refused found (outcome_fault failing ⟨file, _, rfl⟩)]
      exact fails _
  | none =>
      have outcome := @outcome_descriptor _ file (.write position bytes) failing
      by_cases bare : bytes = []
      · have nothing : world.outcome (.descriptor file (.write position bytes)) =
            (Effect.none, .ok (.wrote 0 file.offset)) := by
          rw [outcome]
          simp [descriptor, bare]
        have still : world.onFile key (.write position bytes) = (.ok (.wrote 0 file.offset),
            { world.passed with files := setFile world.files key { file with offset := file.offset } }) := by
          simp only [World.onFile, found, nothing, applied_none]
          rfl
        rw [still]
        exact empty _ bare (left_moved found _)
      cases writable : file.writable with
      | false =>
          have refused : world.outcome (.descriptor file (.write position bytes)) = refuse .EBADF := by
            simp [outcome, descriptor, bare, writable]
          rw [on_file_refused found refused]
          exact fails _
      | true =>
          obtain ⟨count, within, lands⟩ :=
            descriptor_write world.chance.short position bare writable (ordinary bare writable)
          rw [lands] at outcome
          simp only [World.onFile, found, outcome]
          apply ends count _ _ bare writable within rfl
          have there (effect : Effect) (still : effect.changes = []) :
              (world.applied effect).passed.files.lookup key = some file :=
            (congrArg (List.lookup key) (files_applied world effect still)).trans found
          refine ⟨rfl, rfl, set_file_lookup (there _ rfl) _, ?_⟩
          · simp [World.passed, World.applied, Host.apply, setInode, Inode.size, written_length, within]

end Files

/-! A descriptor whose position the broker knows. -/
section Descriptors

variable (b : Broker)

/-- A read or a write of one descriptor. -/
inductive Access where
  | read (length : Amount Int) (position : Position)
  | write (bytes : List UInt8) (position : Position)
  deriving DecidableEq

def Access.op (fd : Nat) : Access → Op
  | .read length position => .read fd length position
  | .write bytes position => .write fd bytes position

def Access.position : Access → Position
  | .read _ position => position
  | .write _ position => position

/-- The world after the call. -/
def Access.after (fd : Nat) (access : Access) (world : World) : World :=
  ((handleOne b (access.op fd)).run handle world).2

/-- The bytes in the file of a descriptor. -/
def sizeOf (world : World) (fd : Nat) : Nat :=
  match world.entries.lookup fd with
  | none => 0
  | some e =>
      match world.file e.handle with
      | none => 0
      | some file => (world.host.inodes file.ino).size

/-- The offset that a write is charged from is the one that the host writes at: a position on an append descriptor
is where the file ends, and one on another descriptor is one that the host takes. No bytes are written before the end. -/
def WriteFits (e : Entry) (file : OpenFile) (size : Nat) (bytes : List UInt8) (position : Position) : Prop :=
  bytes.length ≤ maxIo → ∃ start ∈ writeAt e size position,
    (bytes = [] → start ≤ size) ∧
    (bytes ≠ [] → file.writable = true → file.kind ≠ .special ∧
      if file.append then start = size else position.number.isSome → position.accepted.isSome)

instance (e : Entry) (file : OpenFile) (size : Nat) (bytes : List UInt8) (position : Position) :
    Decidable (WriteFits e file size bytes position) := by
  unfold WriteFits
  infer_instance

/-- A negative position, which the host takes as its own, is given only to a read that finds nothing there. -/
def ReadFits (file : OpenFile) (size : Nat) (length : Amount Int) (position : Position) : Prop :=
  file.append = false → file.readable = true → file.offset < size → ∀ count ∈ length, 0 < count → count ≤ maxIo →
    position.number.isSome → position.odd ∨ position.accepted.isSome

instance (file : OpenFile) (size : Nat) (length : Amount Int) (position : Position) :
    Decidable (ReadFits file size length position) := by
  unfold ReadFits
  infer_instance

def Access.FitsFile (e : Entry) (file : OpenFile) (size : Nat) : Access → Prop
  | .read length position => ReadFits file size length position
  | .write bytes position => WriteFits e file size bytes position

instance (e : Entry) (file : OpenFile) (size : Nat) (access : Access) : Decidable (access.FitsFile e file size) :=
  match access with
  | .read length position => inferInstanceAs (Decidable (ReadFits file size length position))
  | .write bytes position => inferInstanceAs (Decidable (WriteFits e file size bytes position))

def Access.Fits (world : World) (fd : Nat) (access : Access) : Prop :=
  ∀ e ∈ world.entries.lookup fd, ∀ file ∈ world.file e.handle, access.FitsFile e file (world.host.inodes file.ino).size

instance (world : World) (fd : Nat) (access : Access) : Decidable (access.Fits world fd) := by
  unfold Access.Fits
  infer_instance

/-- The descriptor, its file with `size` bytes, and what the quota has charged so far. -/
structure Known (world : World) (fd : Nat) (e : Entry) (file : OpenFile) (size : Nat) (used : Int) : Prop where
  entry : world.entries.lookup fd = some e
  found : world.file e.handle = some file
  holds : (world.host.inodes file.ino).size = size
  charged : world.quota.bytes = some used
  credit : 0 ≤ used
  counts : e.counts = true
  append : e.append = file.append

/-- The position that the broker keeps is the file's own. -/
structure Tracked (world : World) (fd : Nat) (e : Entry) (file : OpenFile) (size : Nat) (used : Int) : Prop
    extends Known world fd e file size used where
  pos : file.append = false → e.pos = file.offset ∧ file.offset ≤ size

/-- The quota has changed by what the file has, and the descriptor is still tracked. -/
def Followed (fd : Nat) (size : Nat) (used : Int) (after : World) : Prop :=
  ∃ e file grown, Tracked after fd e file grown (used + ((grown : Int) - size))

variable {world : World} {fd size : Nat} {e : Entry} {file : OpenFile} {used : Int}

theorem Tracked.followed (tracked : Tracked world fd e file size used) : Followed fd size used world :=
  ⟨e, file, size, by simpa using tracked⟩

theorem Tracked.passed (tracked : Tracked world fd e file size used) : Tracked world.passed fd e file size used :=
  { tracked with }

/-! The two ways the quota is told of a write. -/

theorem reserve_bytes {quota next : Quota Int} {amount : Int} (before : quota.bytes = some used)
    (accepted : DiskQuota.reserve quota (some amount) (some 0) = some next) :
    next.bytes = some (used + amount) := by
  simp only [DiskQuota.reserve] at accepted
  split at accepted
  · simp at accepted
  · rw [← Option.some.inj accepted]
    simp [DiskQuota.crossings, before, plus]

theorem settle_bytes {quota : Quota Int} {reserved actual : Int} (before : quota.bytes = some (used + reserved))
    (credit : 0 ≤ used) (nonneg : 0 ≤ actual) :
    (DiskQuota.settle quota (some reserved) (some 0) (some actual) (some 0)).bytes = some (used + actual) := by
  simp only [DiskQuota.settle, DiskQuota.crossings, before, minus, plus, atLeastZero, Option.map_some]
  congr 1
  omega

theorem lookup_set_pos {entries : List (Nat × Entry)} (found : entries.lookup fd = some e) (pos : Nat) :
    (entries.map fun entry => if entry.1 == fd then (entry.1, { entry.2 with pos := pos }) else entry).lookup fd =
      some { e with pos := pos } := by
  induction entries with
  | nil => simp at found
  | cons entry rest ih =>
      obtain ⟨other, kept⟩ := entry
      by_cases same : other = fd
      · subst same
        rw [List.lookup_cons, beq_self_eq_true] at found
        cases found
        simp
      · have apart : (fd == other) = false := by simpa using fun equal : fd = other => same equal.symm
        rw [List.lookup_cons, apart] at found
        simpa [same, List.lookup_cons, apart] using ih found

theorem Known.setPos (known : Known world fd e file size used) (pos : Nat) :
    Known (handle (.setPos fd pos) world).2 fd { e with pos := pos } file size used :=
  { known with entry := lookup_set_pos known.entry pos, counts := known.counts }

/-- The write is settled with the growth of the file. -/
theorem Known.settled (known : Known world fd e file size used) {middle after : World} {landed : OpenFile} {grown : Nat}
    {reserved actual : Int} (entries : middle.entries = world.entries)
    (held : middle.quota.bytes = some (used + reserved)) (left : Left middle e.handle landed grown after)
    (append : landed.append = file.append) (growth : actual = (grown : Int) - size) (nonneg : 0 ≤ actual) :
    Known (handle (.settle (some reserved) (some 0) (some actual) (some 0)) after).2 fd e landed grown
      (used + ((grown : Int) - size)) where
  entry := (congrArg (List.lookup fd) (left.entries.trans entries)).trans known.entry
  found := left.found
  holds := left.size
  charged := by
    rw [← growth]
    exact settle_bytes (left.quota ▸ held) known.credit nonneg
  credit := by
    have credit := known.credit
    omega
  counts := known.counts
  append := known.append.trans append.symm

variable {good : World → Act → Prop} {bad : NodeError → World → Prop}

theorem fd_entry_rule {ok : Entry → World → Prop} {syscall : String} (found : world.entries.lookup fd = some e)
    (admits : ∀ act, good world act) (fails : ∀ error, bad error world) (ends : ok e world) :
    (fdEntry fd syscall).Spec handle good ok bad world := by
  simp only [fdEntry, Program.spec_bind, fd_has_spec, refuse_if_spec, fd_get_spec, found, Program.spec_pure]
  refine ⟨admits _, ?_⟩
  split
  · exact fails _
  · exact ⟨admits _, ends⟩

/-- What a reservation of bytes leaves. -/
structure Held (world : World) (amount : Int) (middle : World) : Prop where
  entries : middle.entries = world.entries
  files : middle.files = world.files
  host : middle.host = world.host
  bytes : ∀ used, world.quota.bytes = some used → middle.quota.bytes = some (used + amount)

theorem reserve_world (world : World) (amount : Int) :
    handle (.reserve (some amount) (some 0)) world = (false, world) ∨
      ∃ middle, handle (.reserve (some amount) (some 0)) world = (true, middle) ∧ Held world amount middle := by
  cases accepted : DiskQuota.reserve world.quota (some amount) (some 0) with
  | none => exact .inl (by simp [handle, accepted])
  | some next =>
      exact .inr ⟨{ world with quota := next }, by simp [handle, accepted],
        rfl, rfl, rfl, fun used before => reserve_bytes before accepted⟩

theorem number_none {position : Position} (omitted : position.number.isNone = true) : position = .omitted := by
  cases position with
  | omitted => rfl
  | integer offset => simp [Position.number] at omitted
  | other number => simp [Position.number] at omitted

/-- The write is charged from where the host puts it. -/
theorem charged_start (tracked : Tracked world fd e file size used) {position : Position} {start : Int}
    (charged : writeAt e size position = some start)
    (fits : if file.append then start = size else position.number.isSome → position.accepted.isSome) :
    start = (writeStart file size position.accepted : Nat) := by
  cases append : file.append with
  | true =>
      rw [append, if_pos rfl] at fits
      rw [fits, writeStart, append, if_pos rfl]
  | false =>
      rw [append, if_neg Bool.false_ne_true] at fits
      have ours : e.append = false := tracked.append.trans append
      cases position with
      | omitted =>
          simp only [writeAt, Position.number, ours, Bool.false_eq_true, if_false, Option.some.injEq] at charged
          simp [← charged, writeStart, append, Position.accepted, (tracked.pos append).1]
      | integer offset =>
          have given := fits rfl
          simp only [writeAt, Position.number, Option.some.injEq] at charged
          simp only [Position.accepted] at given
          split at given
          · next nonneg => simp [writeStart, append, Position.accepted, nonneg, ← charged]
          · simp at given
      | other number => simpa [Position.accepted] using fits rfl

variable {b}

theorem write_followed (counting : b.counting = true) (tracked : Tracked world fd e file size used)
    {bytes : List UInt8} {position : Position} (fits : WriteFits e file size bytes position) :
    (FsBroker.write b fd bytes position).Spec handle (fun _ _ => True) (fun _ => Followed fd size used)
      (fun _ => Followed fd size used) world := by
  simp only [FsBroker.write, Program.spec_bind]
  apply fd_entry_rule tracked.entry (fun _ => trivial) (fun _ => tracked.followed)
  simp only [refuse_if_spec, decide_eq_true_eq]
  split
  · exact tracked.followed
  next small =>
  obtain ⟨start, isStart, noBytes, someBytes⟩ := fits (Nat.le_of_not_lt small)
  have charged : writeAt e size position = some start := isStart
  simp only [tracked.counts, counting, Bool.and_self, sizeIf, if_true, Program.spec_bind, Program.spec_pure]
  apply fh_stat_rule tracked.found trivial (fun _ => tracked.passed.followed)
  intro st holds _
  rw [holds, tracked.holds]
  simp only [charged, plus, minus, atLeastZero, Option.map_some, only_if_spec, if_true, reserve, Program.spec_bind,
    quota_reserve_spec, refuse_if_spec, Program.spec_catch, Program.spec_throw, settle_spec]
  refine ⟨trivial, ?_⟩
  generalize reservation : max 0 (start + (bytes.length : Int) - size) = reserved
  rcases reserve_world world.passed reserved with refused | ⟨middle, passes, kept⟩
  · rw [refused]
    exact tracked.passed.followed
  rw [passes]
  have held : middle.quota.bytes = some (used + reserved) := kept.bytes used tracked.charged
  have found : middle.file e.handle = some file := (congrArg (List.lookup e.handle) kept.files).trans tracked.found
  have holds : (middle.host.inodes file.ino).size = size := kept.host ▸ tracked.holds
  have known := tracked.toKnown
  -- the write goes wrong, or there is nothing to write
  have still : ∀ {after}, Left middle e.handle file size after →
      Tracked (handle (.settle (some reserved) (some 0) (some 0) (some 0)) after).2 fd e file size
        (used + ((size : Int) - size)) := fun left =>
    { known.settled kept.entries held left rfl (by omega) (le_refl 0) with pos := tracked.pos }
  simp only [Bool.not_true, Bool.false_eq_true, if_false]
  apply fh_write_rule position.accepted bytes found (fun some writable => (someBytes some writable).1) trivial
  · intro error
    exact ⟨trivial, _, _, _, still (holds ▸ left_passed found)⟩
  · intro after bare left
    have start_within := noBytes bare
    have nothing : max 0 (start + ((0 : Nat) : Int) - size) = 0 := by omega
    rw [holds] at left
    refine ⟨trivial, ?_⟩
    rw [nothing]
    split
    · next omitted =>
      simp only [set_pos_spec, true_and]
      refine ⟨_, _, _, { (still left).toKnown.setPos _ with pos := ?_ }⟩
      intro append
      have ours : e.append = false := tracked.append.trans append
      simpa [ours] using tracked.pos append
    · exact ⟨_, _, _, still left⟩
  · intro count offset after some writable short moved left
    obtain ⟨_, told⟩ := someBytes some writable
    have lands := charged_start tracked charged told
    rw [holds] at moved left
    have growth : max 0 (start + (count : Int) - size) =
        ((max size (writeStart file size position.accepted + count) : Nat) : Int) - size := by omega
    have settled := known.settled kept.entries held left rfl growth (le_max_left _ _)
    refine ⟨trivial, ?_⟩
    split
    · next omitted =>
      have none := number_none omitted
      subst none
      simp only [set_pos_spec, true_and]
      refine ⟨_, _, _, { settled.setPos _ with pos := ?_ }⟩
      intro (append : file.append = false)
      have ours : e.append = false := tracked.append.trans append
      have same := (tracked.pos append).1
      simp [moved, ours, same, writeStart, append, Position.accepted]
    · next given =>
      refine ⟨_, _, _, { settled with pos := ?_ }⟩
      intro append
      rw [append, if_neg Bool.false_ne_true] at told
      have accepted := told (by simpa [Option.isSome_iff_ne_none] using given)
      have before := tracked.pos append
      rw [accepted, if_pos rfl] at moved
      exact ⟨before.1.trans moved.symm, moved ▸ before.2.trans (le_max_left _ _)⟩

/-- A read that is not told its place by a position the host takes finds nothing. -/
theorem read_misplaced {count : Int} {position : Position} {bytes : List UInt8} (append : file.append = false)
    (fits : ReadFits file size (some count) position) (asked : count ≤ maxIo)
    (plain : ¬(position.odd && decide (count.toNat ≠ 0)) = true) (given : position.number.isSome)
    (refused : position.accepted = none)
    (finds : bytes ≠ [] → file.readable = true ∧ 0 < count.toNat ∧ file.offset + bytes.length ≤ size) : bytes = [] := by
  by_contra some
  obtain ⟨readable, asks, within⟩ := finds some
  have length := List.length_pos_iff.mpr some
  rcases fits append readable (by omega) count rfl (by omega) asked given with odd | accepted
  · simp only [odd, Bool.true_and, decide_eq_true_eq, ne_eq, not_not] at plain
    omega
  · simp [refused] at accepted

theorem read_followed (tracked : Tracked world fd e file size used) {length : Amount Int} {position : Position}
    (fits : ReadFits file size length position) :
    (FsBroker.read fd length position).Spec handle (fun _ _ => True) (fun _ => Followed fd size used)
      (fun _ => Followed fd size used) world := by
  simp only [FsBroker.read, Program.spec_bind]
  apply fd_entry_rule tracked.entry (fun _ => trivial) (fun _ => tracked.followed)
  cases length with
  | none => exact tracked.followed
  | some count =>
      simp only [Program.spec_bind, refuse_if_spec, Bool.or_eq_true, decide_eq_true_eq, runOn, fhReadAt,
        Program.spec_catch, Program.spec_throw, only_if_spec, set_pos_spec, Program.spec_pure]
      split
      · exact tracked.followed
      next asked =>
      split
      · exact tracked.followed
      next plain =>
      apply fh_read_rule position.accepted count.toNat tracked.found trivial (fun _ => tracked.passed.followed)
      intro bytes offset after moved finds left
      rw [tracked.holds] at finds left
      have known : Known after fd e { file with offset := offset } size used :=
        ⟨(congrArg (List.lookup fd) left.entries).trans tracked.entry, left.found, left.size,
          left.quota ▸ tracked.charged, tracked.credit, tracked.counts, tracked.append⟩
      split
      · next omitted =>
        have none := number_none omitted
        subst none
        have moves : offset = file.offset + bytes.length := moved
        refine ⟨trivial, Tracked.followed { known.setPos (e.pos + bytes.length) with pos := fun append => ?_ }⟩
        have before := tracked.pos append
        refine ⟨by simp [moves, before.1], ?_⟩
        by_cases some : bytes = []
        · simpa [moves, some] using before.2
        · exact moves ▸ (finds some).2.2
      · next given =>
        refine Tracked.followed { known with pos := fun (append : file.append = false) => ?_ }
        have before := tracked.pos append
        have stays : offset = file.offset := by
          cases accepted : position.accepted with
          | some place => simpa [accepted] using moved
          | none =>
              rw [accepted] at moved finds
              have none := read_misplaced append fits (by omega) plain
                (by simpa [Option.isSome_iff_ne_none] using given) accepted finds
              simpa [none] using moved
        exact ⟨before.1.trans stays.symm, stays ▸ before.2⟩

/-- What holds in every end of a program holds after its run. -/
theorem run_ends {α : Type} {prog : Code α} {ends : World → Prop}
    (spec : prog.Spec handle (fun _ _ => True) (fun _ => ends) (fun _ => ends) world) :
    ends (prog.run handle world).2 := by
  have ended := ((Program.spec_iff prog world).mp spec).2
  split at ended
  · next same => rw [same]; exact ended
  · next same => rw [same]; exact ended

/-- One read or write that fits is charged what the file has grown by. -/
theorem access_followed (counting : b.counting = true) (tracked : Tracked world fd e file size used) (access : Access)
    (fits : access.Fits world fd) : Followed fd size used (access.after b fd world) := by
  have fits := fits e tracked.entry file tracked.found
  rw [tracked.holds] at fits
  apply run_ends
  cases access with
  | read length position =>
      simp only [Access.op, handleOne, lockOf, runOp, Program.spec_bind, is_closed_spec, refuse_if_spec, only_if_spec,
        reduceCtorEq, decide_false, Bool.false_eq_true, if_false, true_and]
      split
      · exact tracked.followed
      · exact read_followed tracked fits
  | write bytes position =>
      simp only [Access.op, handleOne, lockOf, runOp, writeOp, Program.spec_bind, Program.spec_pure, is_closed_spec,
        refuse_if_spec, only_if_spec, reduceCtorEq, decide_false, Bool.false_eq_true, if_false, true_and]
      split
      · exact tracked.followed
      · exact write_followed counting tracked fits

/-- The calls of a run, each with the world it is made in. -/
def steps (b : Broker) (fd : Nat) : List Access → World → List (World × Access)
  | [], _ => []
  | access :: rest, world => (world, access) :: steps b fd rest (access.after b fd world)

theorem Tracked.sizeOf (tracked : Tracked world fd e file size used) : sizeOf world fd = size := by
  simp [WriteCharges.sizeOf, tracked.entry, tracked.found, tracked.holds]

/-- What is said of one call: the quota changes by what the file does, and the position kept for a call without one is
the file's. -/
structure Charged (b : Broker) (fd : Nat) (world : World) (access : Access) : Prop where
  bytes : ∃ used, world.quota.bytes = some used ∧
    (access.after b fd world).quota.bytes = some (used + ((sizeOf (access.after b fd world) fd : Int) - sizeOf world fd))
  pos : access.position = .omitted → ∀ e file, world.entries.lookup fd = some e → world.file e.handle = some file →
    file.append = false → e.pos = file.offset

theorem steps_charged (counting : b.counting = true) (tracked : Tracked world fd e file size used)
    (accesses : List Access) (fit : ∀ step ∈ steps b fd accesses world, step.2.Fits step.1 fd) :
    ∀ step ∈ steps b fd accesses world, Charged b fd step.1 step.2 := by
  induction accesses generalizing world e file size used with
  | nil => exact fun _ member => absurd member List.not_mem_nil
  | cons access rest ih =>
      obtain ⟨e', file', grown, after⟩ :=
        access_followed counting tracked access (fit (world, access) List.mem_cons_self)
      intro step member
      rcases List.mem_cons.mp member with first | later
      · subst first
        refine ⟨⟨used, tracked.charged, ?_⟩, ?_⟩
        · rw [after.sizeOf, tracked.sizeOf]
          exact after.charged
        · intro _ other otherFile isEntry isFile append
          rw [tracked.entry] at isEntry
          cases isEntry
          rw [tracked.found] at isFile
          cases isFile
          exact (tracked.pos append).1
      · exact ih after (fun next among => fit next (List.mem_cons_of_mem _ among)) step later

/-- On a counted descriptor that was opened, every read and write that fits is charged what the file has grown by, and
finds the position where the file has it. -/
theorem counted_descriptor_charged (world opened : World) (numbered : (view world).Numbered) (path : PathArg)
    (flags : FlagsArg) (mode fd : Nat)
    (opens : (handleOne b (.open path flags mode)).run handle world = (.ok (.fd fd), opened))
    (counted : ∀ e, opened.entries.lookup fd = some e → e.counts = true) (used : Int)
    (charged : opened.quota.bytes = some used) (credit : 0 ≤ used) (accesses : List Access)
    (fit : ∀ step ∈ steps b fd accesses opened, step.2.Fits step.1 fd) :
    ∀ step ∈ steps b fd accesses opened, Charged b fd step.1 step.2 := by
  obtain ⟨e, file, entry, found, pos, offset, append, counts⟩ := opened_entry numbered opens
  have isCounted := counted e entry
  have tracked : Tracked opened fd e file (opened.host.inodes file.ino).size used :=
    { entry := entry, found := found, holds := rfl, charged := charged, credit := credit, counts := isCounted
      append := append, pos := fun _ => ⟨pos.trans offset.symm, offset ▸ Nat.zero_le _⟩ }
  exact steps_charged (counts isCounted) tracked accesses fit

/-- The world after /data/f, an empty file, was opened. -/
def openedFor (flags : String) : World :=
  ((handleOne fileBridge.broker (.open (absolute ["data", "f"]) (.text flags) 0o666)).run handle (smallWorld fileNames)).2

/-- Bytes are written, read again, and written at the end of an append descriptor. -/
def appending : List Access :=
  [.write [1, 2, 3] .omitted, .read (some 2) (.integer 0), .write [4] (.integer 3), .read (some 8) (.integer (-1))]

theorem appending_charged : (steps fileBridge.broker 3 appending (openedFor "a")).length = appending.length ∧
    ∀ step ∈ steps fileBridge.broker 3 appending (openedFor "a"), Charged fileBridge.broker 3 step.1 step.2 := by
  have isRun : (handleOne fileBridge.broker (.open (absolute ["data", "f"]) (.text "a") 0o666)).run handle
      (smallWorld fileNames) = (.ok (.fd 3), openedFor "a") := rfl
  refine ⟨rfl, counted_descriptor_charged (smallWorld fileNames) (openedFor "a") ?_ _ _ _ 3 isRun ?_ 0 rfl
    (le_refl 0) appending (by decide +kernel)⟩
  · exact fresh_numbered _ _ _
  · intro e entry
    have isEntry : (openedFor "a").entries.lookup 3 = some ⟨0, _, 0, true, true⟩ := rfl
    rw [isEntry] at entry
    cases entry
    rfl

/-- A position on an append descriptor is charged from, and a negative one; the bytes go elsewhere. -/
theorem growth_uncharged :
    ¬(∀ step ∈ steps fileBridge.broker 3 [.write [1, 2, 3] .omitted, .write [4] (.integer 0)] (openedFor "a"),
      Charged fileBridge.broker 3 step.1 step.2) ∧
    ¬(∀ step ∈ steps fileBridge.broker 3 [.write [1] (.integer (-1))] (openedFor "r+"),
      Charged fileBridge.broker 3 step.1 step.2) := by
  constructor
  · intro charged
    obtain ⟨used, before, after⟩ := (charged _ (List.mem_cons_of_mem _ List.mem_cons_self)).bytes
    have held : some used = some 3 := before.symm.trans (by decide +kernel)
    cases held
    exact absurd after (by decide +kernel)
  · intro charged
    obtain ⟨used, before, after⟩ := (charged _ List.mem_cons_self).bytes
    have held : some used = some 0 := before.symm.trans (by decide +kernel)
    cases held
    exact absurd after (by decide +kernel)

end Descriptors

end Countinghouse.WriteCharges
