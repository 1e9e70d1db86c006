import Countinghouse.CanonicalJson
import Countinghouse.WrittenTexts

/-!
lib/module-data.js and the parts of lib/module-manager.js that name or remove what it lays out:
the directory of each module's data, the throwaway directories of the validator, and the removal
of one module's data.

The directory a process works in does not change. A value that is no string is refused by
`safeName` before anything is read of it. A file system is given a path as UTF-8.
-/

namespace Countinghouse.DataDirectories

open HostTree (Name Path Names Node lookup inside inside_iff)
open CanonicalJson (hexDigit escapeChar)
open PathTexts (Plain place plain_ne_empty place_join place_join_empty place_relative place_resolve normalize_ne_empty
  seg_cases free_of_mem_split split_inj)
open WrittenTexts

/-! Names and directories. -/
section Directories

/-- What `process.cwd()` gives. -/
structure WorkingDir where
  path : Path
  plain : ∀ name ∈ path, Plain name

def startsWith (text : Points) (c : Char) : Bool := text.head? == some (.char c)

def safeName (name : Text) : Bool :=
  let text := name.points
  if unitLength text = 0 ∨ 214 < unitLength text then false
  else if .char '\x00' ∈ text ∨ .char '\\' ∈ text then false
  else
    let parts := split text
    if 2 < parts.length then false
    else if parts.length = 2 ∧ ¬ (startsWith (parts.headD []) '@' ∧ 1 < unitLength (parts.headD [])) then false
    else
      parts.zipIdx.all fun (part, i) =>
        if unitLength part = 0 ∨ startsWith part '.' then false
        else
          let scope := decide (parts.length = 2 ∧ i = 0)
          scope || !startsWith part '@'

structure Dirs where
  root : Points
  data : Points
  tmp : Points
  deriving DecidableEq

def escapeUnit (unit : Nat) : List Char :=
  ['\\', 'u', hexDigit (unit / 4096), hexDigit (unit / 256 % 16), hexDigit (unit / 16 % 16), hexDigit (unit % 16)]

def escapePoint : Point → List Char
  | .char c => escapeChar c
  | .high half => escapeUnit (0xD800 + half)
  | .low half => escapeUnit (0xDC00 + half)

/-- `JSON.stringify(name)` -/
def quote (name : Text) : String := String.ofList ('"' :: name.points.flatMap escapePoint ++ ['"'])

def dirsFor (cwd : WorkingDir) (dataRoot name : Text) : Except String Dirs :=
  if safeName name then
    let root := join (resolve cwd.path dataRoot.points :: split name.points)
    .ok ⟨root, join [root, ofString "data"], join [root, ofString "tmp"]⟩
  else .error ("module name " ++ quote name ++ " cannot be used as a data directory name")

def validateRoot (moduleDataPath : Text) : Points := join [moduleDataPath.points, ofString ".validate"]

/-- Where a path leads. -/
def placeOf (cwd : WorkingDir) (path : Points) : Path := place cwd.path (written path)

end Directories

/-! The removal. -/
section Removal

inductive Refusal where
  | unsafeName (message : String)
  | MODULE_DATA_NOT_DIRECTORY (name : Text) (root : Points)
  deriving DecidableEq

/-- `fsp.rm` with everything below, links not followed. -/
def rm (names : Names) (root : Path) : Names := names.filter fun entry => !inside entry.1 root

/-- `fsp.rmdir`, with what it throws caught: nothing is below an empty directory. -/
def rmdir (names : Names) (dir : Path) : Names :=
  if names.any fun entry => inside entry.1 dir && entry.1 != dir then names
  else names.filter fun entry => entry.1 != dir

/-- The deletion of `uninstallModule`. The names are those below the data root, where no
directory that leads to a module's root is a link. -/
def deletion (cwd : WorkingDir) (moduleDataPath name : Text) (keepData : Bool) (names : Names) :
    Except Refusal (Names × Bool) :=
  if keepData then .ok (names, false)
  else
    match dirsFor cwd moduleDataPath name with
    | .error message => .error (.unsafeName message)
    | .ok dirs =>
        let root := placeOf cwd dirs.root
        match lookup names root with
        | none => .ok (names, false)
        | some node =>
            if node.kind = .dir then
              let left := rm names root
              .ok (if startsWith name.points '@' then rmdir left root.dropLast else left, true)
            else .error (.MODULE_DATA_NOT_DIRECTORY name dirs.root)

end Removal

/-! What a safe name is split into. -/
section SafeNames

def begins (text : String) (c : Char) : Bool := text.toList.head? == some c

theorem begins_written (part : Points) {c : Char} (other : c ≠ '\uFFFD') : begins (written part) c = startsWith part c := by
  cases part with
  | nil => rfl
  | cons point rest =>
      have same := written_point other point
      exact Bool.eq_iff_iff.mpr (by simpa [begins, startsWith, written] using same)

theorem length_zero (part : Points) : unitLength part = 0 ↔ part = [] := by
  cases part with
  | nil => simp [unitLength]
  | cons point rest =>
      have some : point.units ≠ 0 := by
        cases point with
        | char c =>
            by_cases small : c.toNat < 0x10000 <;> simp [Point.units, small]
        | high half => simp [Point.units]
        | low half => simp [Point.units]
      simp [unitLength, some]

/-- A part that is a directory of its own: no scope, and not hidden. -/
def Ordinary (part : String) : Prop := Plain part ∧ begins part '.' = false ∧ begins part '@' = false

/-- A scope: it begins with the sign that no ordinary part begins with. -/
def Scope (part : String) : Prop := Plain part ∧ begins part '@' = true

/-- A part that does not begin with a dot is a name of its own. -/
theorem plain_of_visible {part : String} (free : '/' ∉ part.toList) (some : part ≠ "")
    (visible : begins part '.' = false) : Plain part := by
  refine ⟨?_, free⟩
  rcases seg_cases part with ⟨_, rfl | rfl⟩ | ⟨_, rfl⟩ | is
  · exact absurd rfl some
  · exact absurd visible (by decide)
  · exact absurd visible (by decide)
  · exact is

/-- An ordinary name, or an ordinary name in a scope. -/
inductive Parts : List String → Prop where
  | one {part : String} (ordinary : Ordinary part) : Parts [part]
  | within {scope part : String} (isScope : Scope scope) (ordinary : Ordinary part) : Parts [scope, part]

/-- What is written of a part that is checked. -/
theorem written_part {part : Points} (free : '/' ∉ (written part).toList) (some : unitLength part ≠ 0)
    (visible : startsWith part '.' = false) : Plain (written part) ∧ begins (written part) '.' = false := by
  have shown : begins (written part) '.' = false := (begins_written part (by decide)).trans visible
  have nonempty : written part ≠ "" := fun empty => some ((length_zero part).mpr ((written_empty part).mp empty))
  exact ⟨plain_of_visible free nonempty shown, shown⟩

theorem parts_of_safe {name : Text} (safe : safeName name = true) : Parts ((split name.points).map written) := by
  have free : ∀ part ∈ split name.points, '/' ∉ (written part).toList := by
    intro part mem
    exact free_of_mem_split (written_split name.points ▸ List.mem_map_of_mem mem)
  unfold safeName at safe
  dsimp only at safe
  split at safe
  · exact absurd safe Bool.false_ne_true
  split at safe
  · exact absurd safe Bool.false_ne_true
  cases parts : split name.points with
  | nil => exact absurd parts (List.splitOn_ne_nil slash name.points)
  | cons first rest =>
      rw [parts] at free safe
      cases rest with
      | nil =>
          have checked : (unitLength first ≠ 0 ∧ startsWith first '.' = false) ∧ startsWith first '@' = false := by
            simpa using safe
          obtain ⟨plain, visible⟩ := written_part (free first (by simp)) checked.1.1 checked.1.2
          exact Parts.one ⟨plain, visible, (begins_written first (by decide)).trans checked.2⟩
      | cons second rest =>
          cases rest with
          | nil =>
              have checked : (startsWith first '@' = true ∧ 1 < unitLength first) ∧
                  (unitLength first ≠ 0 ∧ startsWith first '.' = false) ∧
                    (unitLength second ≠ 0 ∧ startsWith second '.' = false) ∧ startsWith second '@' = false := by
                simpa using safe
              obtain ⟨⟨scope, _⟩, firstSeen, secondSeen, ordinary⟩ := checked
              obtain ⟨plain, _⟩ := written_part (free first (by simp)) firstSeen.1 firstSeen.2
              obtain ⟨below, visible⟩ := written_part (free second (by simp)) secondSeen.1 secondSeen.2
              exact Parts.within ⟨plain, (begins_written first (by decide)).trans scope⟩
                ⟨below, visible, (begins_written second (by decide)).trans ordinary⟩
          | cons third rest =>
              have many : 2 < (first :: second :: third :: rest).length := by simp
              simp only [if_pos many] at safe
              exact absurd safe Bool.false_ne_true

theorem Parts.plain {parts : List String} (shape : Parts parts) : ∀ part ∈ parts, Plain part := by
  cases shape with
  | one ordinary => simpa using ordinary.1
  | within isScope ordinary => simpa using ⟨isScope.1, ordinary.1⟩

/-- An ordinary part is not a scope, so of two names of different depth neither goes on from the other. -/
theorem Parts.eq_of_prefix {parts others : List String} (shape : Parts parts) (otherShape : Parts others)
    (leading : parts <+: others) : parts = others := by
  cases shape with
  | one ordinary =>
      cases otherShape with
      | one _ => simpa using leading
      | within isScope _ =>
          have same := (List.cons_prefix_cons.mp leading).1
          rw [same] at ordinary
          exact absurd (ordinary.2.2.symm.trans isScope.2) Bool.false_ne_true
  | within _ _ =>
      cases otherShape with
      | one _ => exact absurd leading.length_le (by simp)
      | within _ _ => exact leading.eq_of_length (by simp)

theorem Parts.visible {parts : List String} (shape : Parts parts) : ¬ [".validate"] <+: parts := by
  intro leading
  cases shape with
  | one ordinary =>
      have same := (List.cons_prefix_cons.mp leading).1
      exact absurd (same ▸ ordinary.2.1) (by decide)
  | within isScope _ =>
      have same := (List.cons_prefix_cons.mp leading).1
      exact absurd (same ▸ isScope.2) (by decide)

theorem Parts.ne_nil {parts : List String} (shape : Parts parts) : parts ≠ [] := by
  cases shape <;> simp

end SafeNames

/-! Where the directories are. -/
section Roots

variable (cwd : WorkingDir) (dataRoot : Text)

theorem resolve_ne_empty (text : String) : PathTexts.resolve cwd.path text ≠ "" := by
  simp [PathTexts.resolve, PathTexts.absoluteText]

theorem place_root {name : Text} {dirs : Dirs} (isDirs : dirsFor cwd dataRoot name = .ok dirs) :
    Parts (PathTexts.split (written name.points)) ∧
      placeOf cwd dirs.root = placeOf cwd dataRoot.points ++ PathTexts.split (written name.points) := by
  unfold dirsFor at isDirs
  split at isDirs
  · next safe =>
    have shape := parts_of_safe safe
    cases isDirs
    rw [written_split] at shape
    refine ⟨shape, ?_⟩
    rw [placeOf, placeOf, written_join, List.map_cons, written_resolve, written_split,
      place_join _ (resolve_ne_empty cwd _) _ shape.plain, (place_resolve cwd.plain _).1]
  · cases isDirs

theorem place_validateRoot :
    placeOf cwd (validateRoot dataRoot) = placeOf cwd dataRoot.points ++ [".validate"] := by
  have plain : Plain ".validate" := by decide
  rw [placeOf, placeOf, validateRoot, written_join, List.map_cons, List.map_singleton, written_ofString]
  by_cases empty : written dataRoot.points = ""
  · have here : place cwd.path "" = cwd.path := by
      have parts : PathTexts.split "" = [""] := by decide
      rw [place_relative _ (by decide), parts]
      rfl
    rw [empty, place_join_empty _ plain, here]
  · exact place_join _ empty _ (by simpa using plain)

/-- The roots of two names that are written apart are apart. -/
theorem roots_apart {name other : Text} {dirs others : Dirs} (different : written name.points ≠ written other.points)
    (isDirs : dirsFor cwd dataRoot name = .ok dirs) (isOthers : dirsFor cwd dataRoot other = .ok others) :
    inside (placeOf cwd dirs.root) (placeOf cwd others.root) = false := by
  obtain ⟨shape, isPlace⟩ := place_root cwd dataRoot isDirs
  obtain ⟨otherShape, otherPlace⟩ := place_root cwd dataRoot isOthers
  rw [← Bool.not_eq_true, inside_iff, isPlace, otherPlace, List.prefix_append_right_inj]
  intro leading
  exact different (split_inj (otherShape.eq_of_prefix shape leading)).symm

/-- Two names that are written alike have one root. -/
theorem roots_same {name other : Text} {dirs others : Dirs} (same : written name.points = written other.points)
    (isDirs : dirsFor cwd dataRoot name = .ok dirs) (isOthers : dirsFor cwd dataRoot other = .ok others) :
    placeOf cwd dirs.root = placeOf cwd others.root := by
  rw [(place_root cwd dataRoot isDirs).2, (place_root cwd dataRoot isOthers).2, same]

/-- The data of a module lies in its root, the temporary files too. -/
theorem data_inside {name : Text} {dirs : Dirs} (isDirs : dirsFor cwd dataRoot name = .ok dirs) :
    placeOf cwd dirs.data = placeOf cwd dirs.root ++ ["data"] ∧ placeOf cwd dirs.tmp = placeOf cwd dirs.root ++ ["tmp"] := by
  have data : Plain "data" := by decide
  have tmp : Plain "tmp" := by decide
  unfold dirsFor at isDirs
  split at isDirs
  · cases isDirs
    simp only [placeOf, written_join, List.map_cons, List.map_nil, written_ofString]
    have some : PathTexts.join (written (resolve cwd.path dataRoot.points) :: (split name.points).map written) ≠ "" :=
      normalize_ne_empty _
    exact ⟨place_join cwd.path some ["data"] (by simpa using data), place_join cwd.path some ["tmp"] (by simpa using tmp)⟩
  · cases isDirs

/-- Below two roots that are apart there is nothing. -/
theorem not_below_both {path root other : Path} (apart : inside root other = false) (otherApart : inside other root = false)
    (within : inside path other = true) : inside path root = false := by
  by_contra both
  have below := (inside_iff path root).mp (by simpa using both)
  rcases List.prefix_or_prefix_of_prefix below ((inside_iff path other).mp within) with leading | leading
  · exact absurd ((inside_iff other root).mpr leading) (by simp [otherApart])
  · exact absurd ((inside_iff root other).mpr leading) (by simp [apart])

theorem mem_rmdir {names : Names} {dir : Path} {entry : Path × Node} (mem : entry ∈ names) (other : entry.1 ≠ dir) :
    entry ∈ rmdir names dir := by
  unfold rmdir
  split
  · exact mem
  · exact List.mem_filter.mpr ⟨mem, by simpa using other⟩

/-- What lies in another module's root is still there when a module's data has been removed. -/
theorem deletion_keeps {name other : Text} {others : Dirs}
    (different : written name.points ≠ written other.points)
    (isOthers : dirsFor cwd dataRoot other = .ok others) {keepData : Bool} {names left : Names} {deleted : Bool}
    (done : deletion cwd dataRoot name keepData names = .ok (left, deleted)) :
    ∀ entry ∈ names, inside entry.1 (placeOf cwd others.root) = true → entry ∈ left := by
  intro entry mem within
  unfold deletion at done
  split at done
  · cases done
    exact mem
  · split at done
    · cases done
    · next dirs isDirs =>
      have apart := roots_apart cwd dataRoot different isDirs isOthers
      have otherApart := roots_apart cwd dataRoot (Ne.symm different) isOthers isDirs
      generalize placeOf cwd dirs.root = root at done apart otherApart
      simp only at done
      split at done
      · cases done
        exact mem
      · split at done
        · have kept : entry ∈ rm names root :=
            List.mem_filter.mpr ⟨mem, by simp [not_below_both apart otherApart within]⟩
          -- the scope is not in another module's root: its own module's root would be there too
          have notScope : entry.1 ≠ root.dropLast := by
            intro isScope
            rw [isScope] at within
            have above : inside root root.dropLast = true := (inside_iff _ _).mpr (List.dropLast_prefix root)
            exact absurd (HostTree.inside_trans above within) (by simp [apart])
          cases done
          split
          · exact mem_rmdir kept notScope
          · exact kept
        · cases done

/-- Neither root is in the other, and removing the one's data leaves what the other's root holds. -/
structure Apart (name : Text) (dirs others : Dirs) : Prop where
  outside : inside (placeOf cwd dirs.root) (placeOf cwd others.root) = false
  otherOutside : inside (placeOf cwd others.root) (placeOf cwd dirs.root) = false
  kept : ∀ keepData names left deleted, deletion cwd dataRoot name keepData names = .ok (left, deleted) →
    ∀ entry ∈ names, inside entry.1 (placeOf cwd others.root) = true → entry ∈ left

/-- A module's root is strictly inside the data root and outside `.validate`. The roots of two names are apart exactly if
the names are written apart, as any two that are well formed are. -/
theorem data_directories_private :
    (∀ name, safeName name = true → ∃ dirs, dirsFor cwd dataRoot name = .ok dirs ∧
      (inside (placeOf cwd dirs.root) (placeOf cwd dataRoot.points) = true ∧
        placeOf cwd dirs.root ≠ placeOf cwd dataRoot.points) ∧
      inside (placeOf cwd dirs.root) (placeOf cwd (validateRoot dataRoot)) = false) ∧
    (∀ name other dirs others, name ≠ other → dirsFor cwd dataRoot name = .ok dirs →
      dirsFor cwd dataRoot other = .ok others →
      (Apart cwd dataRoot name dirs others ↔ written name.points ≠ written other.points)) ∧
    ∀ name other : Text, name ≠ other → wellFormed name.points = true → wellFormed other.points = true →
      written name.points ≠ written other.points := by
  refine ⟨?_, ?_, ?_⟩
  · intro name safe
    have isDirs : ∃ dirs, dirsFor cwd dataRoot name = .ok dirs := by
      simp only [dirsFor, safe, if_true]
      exact ⟨_, rfl⟩
    obtain ⟨dirs, isDirs⟩ := isDirs
    obtain ⟨shape, isPlace⟩ := place_root cwd dataRoot isDirs
    refine ⟨dirs, isDirs, ⟨?_, ?_⟩, ?_⟩
    · rw [isPlace, inside_iff]
      exact List.prefix_append _ _
    · rw [isPlace]
      simpa using shape.ne_nil
    · rw [isPlace, place_validateRoot, ← Bool.not_eq_true, inside_iff, List.prefix_append_right_inj]
      exact shape.visible
  · intro name other dirs others _ isDirs isOthers
    constructor
    · intro apart same
      have outside := apart.outside
      rw [roots_same cwd dataRoot same isDirs isOthers, HostTree.inside_self] at outside
      cases outside
    · intro different
      exact ⟨roots_apart cwd dataRoot different isDirs isOthers, roots_apart cwd dataRoot (Ne.symm different) isOthers isDirs,
        fun keepData names left deleted done => deletion_keeps cwd dataRoot different isOthers done⟩
  · intro name other different isName isOther same
    have points := written_inj_of_wellFormed isName isOther same
    exact different (by cases name; cases other; cases points; rfl)

def srv : WorkingDir := ⟨["srv"], by decide⟩

def store : Text := ⟨ofString "store", by decide⟩
def net : Text := ⟨ofString "net", by decide⟩
def egNet : Text := ⟨ofString "@eg/net", by decide⟩

/-- A name and the same name in a scope, below a relative data root. -/
theorem data_directories_private_scoped :
    safeName net = true ∧ safeName egNet = true ∧
      ∃ dirs others, dirsFor srv store net = .ok dirs ∧ dirsFor srv store egNet = .ok others ∧
        Apart srv store net dirs others ∧ inside (placeOf srv dirs.root) (placeOf srv (validateRoot store)) = false := by
  have safe : safeName net = true := by decide
  have scopedSafe : safeName egNet = true := by decide
  have whole := data_directories_private srv store
  obtain ⟨dirs, isDirs, _, visible⟩ := whole.1 net safe
  obtain ⟨others, isOthers, _, _⟩ := whole.1 egNet scopedSafe
  have different := whole.2.2 net egNet (by decide) (by decide) (by decide)
  exact ⟨safe, scopedSafe, dirs, others, isDirs, isOthers,
    (whole.2.1 net egNet dirs others (by decide) isDirs isOthers).mpr different, visible⟩

/-- A name that ends in the first half of a pair. -/
def camWith (half : Fin 0x400) : Text := ⟨ofString "cam" ++ [.high half], rfl⟩

/-- Two such names are safe and have one directory, and the removal of the one's data takes the other's. -/
theorem halves_share_directory :
    safeName (camWith 0) = true ∧ safeName (camWith 1) = true ∧ camWith 0 ≠ camWith 1 ∧
      ∃ dirs others, dirsFor srv store (camWith 0) = .ok dirs ∧ dirsFor srv store (camWith 1) = .ok others ∧
        placeOf srv dirs.root = placeOf srv others.root ∧
        deletion srv store (camWith 0) false [(placeOf srv others.root, ⟨1, .dir⟩), (placeOf srv others.data, ⟨2, .dir⟩)] =
          .ok ([], true) := by
  have safe : safeName (camWith 0) = true := by decide
  have otherSafe : safeName (camWith 1) = true := by decide
  obtain ⟨dirs, isDirs⟩ : ∃ dirs, dirsFor srv store (camWith 0) = .ok dirs := by
    simp only [dirsFor, safe, if_true]
    exact ⟨_, rfl⟩
  obtain ⟨others, isOthers⟩ : ∃ others, dirsFor srv store (camWith 1) = .ok others := by
    simp only [dirsFor, otherSafe, if_true]
    exact ⟨_, rfl⟩
  have written : written (camWith 0).points = written (camWith 1).points := rfl
  have same := roots_same srv store written isDirs isOthers
  have below := (data_inside srv store isOthers).1
  refine ⟨safe, otherSafe, by decide, dirs, others, isDirs, isOthers, same, ?_⟩
  have here : HostTree.inside (placeOf srv others.root) (placeOf srv others.root) = true := HostTree.inside_self _
  have inner : HostTree.inside (placeOf srv others.root ++ ["data"]) (placeOf srv others.root) = true :=
    (inside_iff _ _).mpr (List.prefix_append _ _)
  have plain : startsWith (camWith 0).points '@' = false := by decide
  simp [deletion, isDirs, same, below, lookup, rm, here, inner, plain]

end Roots

end Countinghouse.DataDirectories
