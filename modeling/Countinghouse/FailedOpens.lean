import Countinghouse.OpenFiles
import Countinghouse.RemovalUsage

/-!
What a failed `open` leaves behind. The file that the host has opened is closed by `verifyOpened`
and by the check for special files; a stat or a truncation that the host fails leaves it open.
A name that the host made stays, and was charged when the path named nothing under a root of
the quota, wherever it was made.
-/

namespace Countinghouse.FailedOpens

open HostTree HostCalls FileNamespace BrokerWorld FsBroker BrokerClosing SpawnWalk OpenFiles RemovalUsage
  ProgramTraces
open Program (Prog)
open DiskQuota (plus)

variable (b : Broker)

/-- The real directories of the roots that the quota counts. -/
def countedRoots : List Path := (b.ns.roots.filter Root.quota).map Root.real

def treeNames (host : Host) : Nat := (under host.names (countedRoots b)).length

def treeBytes (host : Host) : Nat := fileBytes host (under host.names (countedRoots b))

/-- The table and the host's open files are as before, and the quota has changed by what the tree has. -/
structure NothingLeft (before after : World) : Prop where
  fds : after.fds = before.fds
  entries : after.entries = before.entries
  files : (view after).files = (view before).files
  bytes : b.counting = true →
    after.quota.bytes = plus before.quota.bytes (some ((treeBytes b after.host : Int) - treeBytes b before.host))
  names : b.counting = true →
    after.quota.entries = plus before.quota.entries (some ((treeNames b after.host : Int) - treeNames b before.host))

/-- A new name at the path is charged. -/
def charges (path : PathArg) (host : Host) : Bool :=
  match (toVirtualPath b.cwd path).map (FileNamespace.resolve b.ns) with
  | some (.root _ target within) => within.quota && unnamed host target
  | _ => false

/-- A name at the location is counted. -/
def countable (location : Path) : Bool := (countedRoots b).any fun root => strictlyInside location root

/-- A file that the open of this entry makes is charged exactly when it is counted. -/
def FairlyMade (path : PathArg) (entry : World × Act) : Prop :=
  ∀ location ∈ makes entry, charges b path entry.1.host = countable b location

instance (path : PathArg) (entry : World × Act) : Decidable (FairlyMade b path entry) := by
  unfold FairlyMade
  infer_instance

/-! The tree when a file is made. -/
section Made

variable {b} {host : Host} {location : Path} {mode : Nat}

def made (host : Host) (location : Path) (mode : Nat) : Host := host.apply (create host location .file mode)

theorem made_names : (made host location mode).names = (location, ⟨host.nextIno, .file⟩) :: host.names := rfl

theorem tree_names_made :
    (treeNames b (made host location mode) : Int) - treeNames b host = if countable b location then 1 else 0 := by
  unfold treeNames under
  rw [made_names, List.filter_cons]
  cases inner : countable b location with
  | true =>
      have isIn : ((countedRoots b).any fun root => strictlyInside location root) = true := inner
      simp [isIn]
  | false =>
      have isOut : ((countedRoots b).any fun root => strictlyInside location root) = false := inner
      simp [isOut]

theorem made_size_other {ino : Nat} (other : ino < host.nextIno) :
    ((made host location mode).inodes ino).size = (host.inodes ino).size := by
  have apart : ino ≠ host.nextIno := Nat.ne_of_lt other
  simp [made, Host.apply, create, setInode, apart]

theorem made_size_new : ((made host location mode).inodes host.nextIno).size = 0 := by
  simp [made, Host.apply, create, setInode, Inode.size]

/-- The new file has no bytes, and no other name is one of it. -/
theorem tree_bytes_made (fresh : ∀ entry ∈ host.names, entry.2.ino < host.nextIno) :
    treeBytes b (made host location mode) = treeBytes b host := by
  have old : ∀ ino ∈ fileInos (under host.names (countedRoots b)), ino < host.nextIno := by
    intro ino isFile
    obtain ⟨entry, member, -, same⟩ := mem_file_inos.mp isFile
    exact same ▸ fresh entry (mem_under.mp member).1
  have sizes : ((fileInos (under host.names (countedRoots b))).dedup.map fun ino =>
      ((made host location mode).inodes ino).size) =
        (fileInos (under host.names (countedRoots b))).dedup.map fun ino => (host.inodes ino).size :=
    List.map_congr_left fun ino isFile => made_size_other (old ino (List.mem_dedup.mp isFile))
  unfold treeBytes fileBytes
  rw [made_names, under, List.filter_cons]
  split
  · have new : host.nextIno ∉ fileInos (under host.names (countedRoots b)) :=
      fun isFile => absurd (old _ isFile) (Nat.lt_irrefl _)
    have inos : fileInos ((location, ⟨host.nextIno, .file⟩) :: under host.names (countedRoots b)) =
        host.nextIno :: fileInos (under host.names (countedRoots b)) := rfl
    change ((fileInos ((location, ⟨host.nextIno, .file⟩) :: under host.names (countedRoots b))).dedup.map _).sum = _
    rw [inos, List.dedup_cons_of_notMem new, List.map_cons, List.sum_cons, made_size_new, Nat.zero_add, sizes]
  · exact congrArg List.sum sizes

end Made

/-! What is left. -/
section Left

variable {b} {world : World} {path : PathArg}

theorem plus_cancel (amount : DiskQuota.Amount Int) (count : Nat) : plus amount (some ((count : Int) - count)) = amount := by
  rw [Int.sub_self, plus_zero]

theorem plus_inj (amount : DiskQuota.Amount Int) (a b : Int) :
    plus amount (some a) = plus amount (some b) ↔ (amount.isSome → a = b) := by
  cases amount <;> simp [plus]

/-- Nothing is left where nothing has changed. -/
theorem same_nothing_left {after : World} (same : Same world after) : NothingLeft b world after where
  fds := same.fds
  entries := same.entries
  files := congrArg (List.map Prod.fst) same.files
  bytes := fun _ => by rw [same.host, plus_cancel, same.bytes]
  names := fun _ => by rw [same.host, plus_cancel, same.names]

variable {done rest : List (World × Act)} {placed : Placed} {host : Path} {flags : OpenFlags} {mode : Nat}
  {opening opened after : World}

/-- A file that stays open is left. -/
theorem leak_left (reached : Reached b path world done placed host flags mode opening opened rest)
    (same : Same opened after) : ¬NothingLeft b world after := by
  intro nothing
  obtain ⟨file, files, -⟩ := reached.opens.files
  have lengths := congrArg List.length nothing.files
  simp [view, same.files, files, reached.reserved.files] at lengths

/-- When the new file is closed again, the open files are those before. -/
theorem shut_files (numbered : (view world).Numbered)
    (reached : Reached b path world done placed host flags mode opening opened rest)
    (same : Same (shut opening.nextHandle opened) after) : after.files = world.files := by
  obtain ⟨file, files, -⟩ := reached.opens.files
  have kept : (world.files.filter fun entry => entry.1 != opening.nextHandle) = world.files := by
    apply List.filter_eq_self.mpr
    intro entry member
    have below : entry.1 < world.nextHandle := numbered.handles _ (List.mem_map_of_mem member)
    rw [reached.reserved.nextHandle]
    simpa using Nat.ne_of_lt below
  rw [same.files]
  simp only [shut, handle, files, reached.reserved.files, List.filter_append, kept]
  simp

theorem standing_takes (guarded : b.enforce = true) (standing : Standing b path placed host) (creating : flags.creat = true)
    (names : Host) : takes b placed host flags names = (b.counting && charges b path names) := by
  obtain ⟨site, rfl⟩ := standing.rooted guarded
  obtain ⟨virtual, named, resolved⟩ := standing.sited site rfl
  have isHost : site.host = host := Option.some.inj standing.host
  simp [takes, charges, counts, quotaRoot, named, resolved, isHost, creating, Bool.and_assoc]

/-- With the file closed, what is left is the name that the host made, if it was not charged as it is counted. -/
theorem shut_left (guarded : b.enforce = true) (numbered : (view world).Numbered)
    (fresh : ∀ entry ∈ world.host.names, entry.2.ino < world.host.nextIno)
    (reached : Reached b path world done placed host flags mode opening opened rest)
    (same : Same (shut opening.nextHandle opened) after) :
    NothingLeft b world after ↔ (b.counting = true → world.quota.entries.isSome →
      FairlyMade b path (opening, .openFile host { flags with trunc := false } mode)) := by
  have files := congrArg (List.map Prod.fst) (shut_files numbered reached same)
  have fds : after.fds = world.fds := same.fds.trans (reached.opens.fds.trans reached.reserved.fds)
  have entries : after.entries = world.entries := same.entries.trans (reached.opens.entries.trans reached.reserved.entries)
  have bytes : after.quota.bytes = world.quota.bytes :=
    same.bytes.trans ((congrArg DiskQuota.Quota.bytes reached.opens.quota).trans reached.reserved.bytes)
  have names : after.quota.entries = plus world.quota.entries (some (if takes b placed host flags world.host then 1 else 0)) :=
    same.names.trans ((congrArg DiskQuota.Quota.entries reached.opens.quota).trans reached.reserved.names)
  have isHost : after.host = opened.host := same.host
  rcases reached.opens.host with ⟨kept, named, unmade⟩ | ⟨location, creating, makes, only⟩
  · have untaken : takes b placed host flags world.host = false := by
      rw [← reached.reserved.host]
      simp [takes, named]
    have still : after.host = world.host := isHost.trans (kept.trans reached.reserved.host)
    refine ⟨fun _ _ _ => by simp [FairlyMade, unmade], fun _ => ⟨fds, entries, files, fun _ => ?_, fun _ => ?_⟩⟩
    · rw [still, plus_cancel, bytes]
    · rw [still, plus_cancel, names, untaken]
      exact plus_zero _
  · have taken : takes b placed host flags world.host = (b.counting && charges b path world.host) :=
      standing_takes guarded reached.standing creating world.host
    have new : after.host = made world.host location mode := by
      rw [isHost, makes, reached.reserved.host]
      rfl
    have sameBytes : treeBytes b after.host = treeBytes b world.host := new ▸ tree_bytes_made fresh
    -- the entry that was charged against the name that is counted
    have charged (counting : b.counting = true) : after.quota.entries =
        plus world.quota.entries (some ((treeNames b after.host : Int) - treeNames b world.host)) ↔
          (world.quota.entries.isSome → charges b path world.host = countable b location) := by
      rw [names, new, tree_names_made, plus_inj, taken, counting, Bool.true_and]
      refine imp_congr_right fun _ => ?_
      cases charges b path world.host <;> cases countable b location <;> simp
    have fairly : FairlyMade b path (opening, .openFile host { flags with trunc := false } mode) ↔
        charges b path world.host = countable b location := by
      simp [FairlyMade, only, reached.reserved.host]
    rw [fairly]
    constructor
    · exact fun nothing counting => (charged counting).mp (nothing.names counting)
    · intro fair
      refine ⟨fds, entries, files, fun _ => ?_, fun counting => ?_⟩
      · rw [sameBytes, plus_cancel, bytes]
      · exact (charged counting).mpr (fair counting)

/-- A failed `open` leaves nothing if and only if the host fails no call on the file it has opened, and a file that it
makes is charged exactly when it is counted. -/
theorem failed_open_leaves_nothing (b : Broker) (guarded : b.enforce = true) (path : PathArg) (flags : FlagsArg) (mode : Nat)
    (world : World) (numbered : (view world).Numbered)
    (fresh : ∀ entry ∈ world.host.names, entry.2.ino < world.host.nextIno) (credited : Credited world)
    (error : NodeError) (after : World)
    (fails : (handleOne b (.open path flags mode)).run handle world = (.error error, after)) :
    NothingLeft b world after ↔
      (∀ entry ∈ (handleOne b (.open path flags mode)).trace handle world, Answered entry) ∧
        (b.counting = true → world.quota.entries.isSome →
          ∀ entry ∈ (handleOne b (.open path flags mode)).trace handle world, FairlyMade b path entry) := by
  have attempted : Ends handle (Attempted b path world) (handleOne b (.open path flags mode)) world :=
    attempted_handle flags mode
  rw [Ends, fails] at attempted
  generalize (handleOne b (.open path flags mode)).trace handle world = done at attempted ⊢
  rcases attempted with ⟨fd, differs, -⟩ | ⟨_, -, attempt⟩
  · cases differs
  rcases attempt with ⟨-, same, plain⟩ | ⟨placed, host, asked, bits, opening, opened, rest, reached, inner, ended⟩
  · refine ⟨fun _ => ⟨fun entry member => (plain entry member).1, ?_⟩, fun _ => same_nothing_left (same credited)⟩
    exact fun _ _ entry member => by simp [FairlyMade, (plain entry member).2]
  · obtain ⟨first, rfl, plain⟩ := reached.before
    have opens : Answered (opening, .openFile host { asked with trunc := false } bits) := rfl
    have answered : (∀ entry ∈ first ++ (opening, .openFile host { asked with trunc := false } bits) :: rest, Answered entry) ↔
        ∀ entry ∈ rest, Answered entry := by
      rw [List.forall_mem_append, List.forall_mem_cons]
      exact ⟨fun all => all.2.2, fun later => ⟨fun entry member => (plain entry member).1, opens, later⟩⟩
    have fair : (∀ entry ∈ first ++ (opening, .openFile host { asked with trunc := false } bits) :: rest,
        FairlyMade b path entry) ↔ FairlyMade b path (opening, .openFile host { asked with trunc := false } bits) := by
      rw [List.forall_mem_append, List.forall_mem_cons]
      refine ⟨fun all => all.2.1, fun own => ⟨fun entry member => ?_, own, fun entry member => ?_⟩⟩
      · simp [FairlyMade, (plain entry member).2]
      · simp [FairlyMade, inner_unmade (inner entry member)]
    rw [answered, fair]
    rcases ended with ⟨same, failed⟩ | ⟨same, fine⟩
    · exact iff_of_false (leak_left reached same) fun both => failed both.1
    · rw [shut_left guarded numbered fresh reached same]
      exact ⟨fun left => ⟨fine, left⟩, fun both => both.2⟩

/-- /data with a file, a link out of every root and a link into /tmp, both to nothing. -/
def linksNames : Names :=
  fileNames ++ [(["srv", "data", "out"], ⟨6, .link ⟨true, [.name "srv", .name "x"]⟩⟩),
    (["srv", "data", "in"], ⟨7, .link ⟨true, [.name "srv", .name "tmp", .name "x"]⟩⟩)]

def linksBroker : Broker := smallBroker smallConfig linksNames

def openRun (name : Name) (flags : FlagsArg) : Except NodeError Value × World :=
  (handleOne linksBroker (.open (absolute ["data", name]) flags 0o666)).run handle (smallWorld linksNames)

/-- A file is made outside the roots and refused: its name is not counted and was not charged. -/
theorem outer_link_leaves_nothing : NothingLeft linksBroker (smallWorld linksNames) (openRun "out" (.text "w")).2 := by
  have refused : openRun "out" (.text "w") =
      (.error (nodeError .ENOENT "open" ["data", "out"]), (openRun "out" (.text "w")).2) := rfl
  exact (failed_open_leaves_nothing linksBroker rfl (absolute ["data", "out"]) (.text "w") 0o666 (smallWorld linksNames)
    (fresh_numbered _ _ _) (by decide) ⟨fun used charged => by cases charged; decide, fun count charged => by
      cases charged; decide⟩ _ _ refused).mpr ⟨by decide +kernel, fun _ _ => by decide +kernel⟩

/-- A truncation that the host refuses leaves the file open; a file made in /tmp through a link stays uncharged. -/
theorem failed_opens_leave_things :
    ((openRun "f" (.number { trunc := true })).1 = .error (nodeError .EINVAL "ftruncate" ["data", "f"]) ∧
      ¬NothingLeft linksBroker (smallWorld linksNames) (openRun "f" (.number { trunc := true })).2) ∧
    (openRun "in" (.text "w")).1 = .error (nodeError .ENOENT "open" ["data", "in"]) ∧
      ¬NothingLeft linksBroker (smallWorld linksNames) (openRun "in" (.text "w")).2 := by
  refine ⟨⟨rfl, fun nothing => ?_⟩, rfl, fun nothing => ?_⟩
  · exact absurd nothing.files (by decide +kernel)
  · exact absurd (nothing.names rfl) (by decide +kernel)

end Left

end Countinghouse.FailedOpens
