import Countinghouse.PathTexts

/-!
The texts of JavaScript, which may have halves of a surrogate pair in them that stand alone, the
path functions on such texts, and what is left of a text when it is written as UTF-8: a half that
stands alone becomes U+FFFD. Nothing here belongs to a particular program.
-/

namespace Countinghouse.WrittenTexts

open HostTree (Path)

/-! Texts. -/
section Texts

/-- A code point: a character, or the first or the second half of a pair, alone. -/
inductive Point where
  | char (c : Char)
  | high (half : Fin 0x400)
  | low (half : Fin 0x400)
  deriving DecidableEq

abbrev Points := List Point

/-- No first half is followed by a second one: the two would be one character. -/
def paired : Points → Bool
  | .high _ :: .low _ :: _ => false
  | _ :: rest => paired rest
  | [] => true

/-- A value of type string, by its code points. -/
structure Text where
  points : Points
  isPaired : paired points = true
  deriving DecidableEq

def ofString (text : String) : Points := text.toList.map Point.char

def slash : Point := .char '/'

def Point.units : Point → Nat
  | .char c => if c.toNat < 0x10000 then 1 else 2
  | .high _ => 1
  | .low _ => 1

/-- `length` -/
def unitLength (text : Points) : Nat := (text.map Point.units).sum

/-- The character that a code point is written as. -/
def Point.written : Point → Char
  | .char c => c
  | .high _ => '\uFFFD'
  | .low _ => '\uFFFD'

/-- What a file system is given. -/
def written (text : Points) : String := String.ofList (text.map Point.written)

/-- No half of a pair stands alone. -/
def wellFormed (text : Points) : Bool := text.all fun
  | .char _ => true
  | .high _ => false
  | .low _ => false

end Texts

/-! The path functions. -/
section Functions

def split (text : Points) : List Points := text.splitOn slash

def isAbsolute (text : Points) : Bool := text.head? == some slash

def normalizeString (allowAboveRoot : Bool) (kept : List Points) : List Points → List Points
  | [] => kept
  | part :: rest =>
      if part = [] ∨ part = ofString "." then normalizeString allowAboveRoot kept rest
      else if part = ofString ".." then
        if kept.getLast?.all fun last => last == ofString ".." then
          normalizeString allowAboveRoot (if allowAboveRoot then kept ++ [ofString ".."] else kept) rest
        else normalizeString allowAboveRoot kept.dropLast rest
      else normalizeString allowAboveRoot (kept ++ [part]) rest

def normalize (text : Points) : Points :=
  if text = [] then ofString "."
  else
    let kept := [slash].intercalate (normalizeString (!isAbsolute text) [] (split text))
    let trailing := if text.getLast? = some slash then [slash] else []
    if kept = [] then if isAbsolute text then [slash] else ofString "." ++ trailing
    else (if isAbsolute text then [slash] else []) ++ kept ++ trailing

def join (args : List Points) : Points := normalize ([slash].intercalate (args.filter fun arg => arg != []))

def absoluteText (path : List Points) : Points := slash :: [slash].intercalate path

/-- The text that `resolve` normalises. -/
def fromCwd (cwd : Path) (text : Points) : Points :=
  if text = [] then absoluteText (cwd.map ofString)
  else if isAbsolute text then text
  else absoluteText (cwd.map ofString) ++ slash :: text

def resolve (cwd : Path) (text : Points) : Points :=
  absoluteText (normalizeString false [] (split (fromCwd cwd text)))

end Functions

/-! What is written of a text. -/
section Written

@[simp] theorem written_nil : written [] = "" := rfl

@[simp] theorem written_slash : written [slash] = "/" := rfl

@[simp] theorem written_append (front rest : Points) : written (front ++ rest) = written front ++ written rest := by
  simp [written]

@[simp] theorem written_ofString (text : String) : written (ofString text) = text := by
  simp [written, ofString, Function.comp_def, Point.written]

/-- Halves are written as no character that a path function looks at. -/
theorem written_point {c : Char} (other : c ≠ '\uFFFD') (point : Point) : point.written = c ↔ point = .char c := by
  cases point with
  | char d => simp [Point.written]
  | high half => simp [Point.written, Ne.symm other]
  | low half => simp [Point.written, Ne.symm other]

theorem written_eq_iff (text : String) (other : ∀ c ∈ text.toList, c ≠ '\uFFFD') (points : Points) :
    written points = text ↔ points = ofString text := by
  constructor
  · intro same
    have chars : points.map Point.written = text.toList := by simp [← same, written]
    have each : points = (points.map Point.written).map Point.char := by
      rw [List.map_map]
      conv_lhs => rw [← List.map_id points]
      refine List.map_congr_left fun point member => ?_
      have isChar : point.written ∈ text.toList := chars ▸ List.mem_map_of_mem member
      exact (written_point (other _ isChar) point).mp rfl
    rw [each, chars, ofString]
  · rintro rfl
    exact written_ofString text

theorem written_empty (points : Points) : written points = "" ↔ points = [] :=
  written_eq_iff "" (by simp) points

theorem written_inj_of_wellFormed {first second : Points} (isFirst : wellFormed first = true)
    (isSecond : wellFormed second = true) (same : written first = written second) : first = second := by
  have chars : ∀ points, wellFormed points = true → points = ofString (written points) := by
    intro points formed
    induction points with
    | nil => rfl
    | cons point rest ih =>
        simp only [wellFormed, List.all_cons, Bool.and_eq_true] at formed
        have later := ih (by simpa [wellFormed] using formed.2)
        cases point with
        | char c => simpa [ofString, written, Point.written] using later
        | high half => simp at formed
        | low half => simp at formed
  rw [chars first isFirst, chars second isSecond, same]

theorem splitOn_map (points : Points) :
    (points.splitOn slash).map (List.map Point.written) = (points.map Point.written).splitOn '/' := by
  induction points with
  | nil => rfl
  | cons point rest ih =>
      rw [List.map_cons, List.splitOn_cons_eq_if_modifyHead, List.splitOn_cons_eq_if_modifyHead]
      by_cases isSlash : point = slash
      · subst isSlash
        simp [slash, Point.written, ← ih]
      · have isOther : point.written ≠ '/' := fun same => isSlash ((written_point (by decide) point).mp same)
        simp only [beq_iff_eq, isSlash, isOther, if_false]
        cases parts : rest.splitOn slash with
        | nil => exact absurd parts (List.splitOn_ne_nil slash rest)
        | cons first more =>
            rw [parts, List.map_cons] at ih
            rw [← ih]
            rfl

theorem written_split (text : Points) : (split text).map written = PathTexts.split (written text) := by
  have pieces := congrArg (List.map String.ofList) (splitOn_map text)
  rw [List.map_map] at pieces
  rw [split, PathTexts.split, written, String.toList_ofList, ← pieces]
  rfl

theorem written_isAbsolute (text : Points) : PathTexts.isAbsolute (written text) = isAbsolute text := by
  cases text with
  | nil => rfl
  | cons point rest =>
      have same := written_point (c := '/') (by decide) point
      simp [PathTexts.isAbsolute, isAbsolute, written, slash, same]

theorem written_intercalate (parts : List Points) :
    written ([slash].intercalate parts) = "/".intercalate (parts.map written) := by
  induction parts with
  | nil => rfl
  | cons part rest ih =>
      cases rest with
      | nil => simp
      | cons next rest =>
          rw [List.intercalate_cons_cons, written_append, written_append, ih]
          simp only [List.map_cons, String.intercalate_cons_cons, written_slash]

theorem written_normalizeString (allow : Bool) (kept parts : List Points) :
    (normalizeString allow kept parts).map written =
      PathTexts.normalizeString allow (kept.map written) (parts.map written) := by
  have isUp (part : Points) : written part = ".." ↔ part = ofString ".." :=
    written_eq_iff ".." (by simp) part
  have isHere (part : Points) : written part = "." ↔ part = ofString "." :=
    written_eq_iff "." (by simp) part
  induction parts generalizing kept with
  | nil => rfl
  | cons part rest ih =>
      rw [normalizeString, List.map_cons, PathTexts.normalizeString, ModuleTree.segOf]
      simp only [written_empty, isHere, isUp]
      split
      · exact ih kept
      · split
        · have top : ((kept.map written).getLast?.all fun last => last == "..") =
              kept.getLast?.all fun last => last == ofString ".." := by
            rw [List.getLast?_map]
            cases kept.getLast? with
            | none => rfl
            | some last => exact Bool.eq_iff_iff.mpr (by simpa using isUp last)
          simp only [top]
          split
          · rw [ih]
            cases allow <;> simp
          · rw [ih, List.map_dropLast]
        · simp [ih]

theorem written_normalize (text : Points) : written (normalize text) = PathTexts.normalize (written text) := by
  have kept := written_normalizeString (!isAbsolute text) [] (split text)
  rw [written_split, List.map_nil] at kept
  have trailing : written (if text.getLast? = some slash then [slash] else []) =
      if (written text).toList.getLast? = some '/' then "/" else "" := by
    have same : (written text).toList.getLast? = some '/' ↔ text.getLast? = some slash := by
      rw [written, String.toList_ofList, List.getLast?_map]
      cases text.getLast? with
      | none => simp
      | some last => simp [slash, written_point (c := '/') (by decide) last]
    simp only [same]
    split <;> rfl
  unfold normalize PathTexts.normalize
  simp only [written_isAbsolute, written_empty, ← kept, ← written_intercalate, ← trailing]
  split
  · rfl
  · split
    · split
      · rfl
      · rw [written_append, written_ofString]
    · rw [written_append, written_append]
      split <;> rfl

theorem written_join (args : List Points) : written (join args) = PathTexts.join (args.map written) := by
  have some : (args.filter fun arg => arg != []).map written = (args.map written).filter fun arg => arg != "" := by
    rw [List.filter_map]
    refine congrArg (List.map written) (List.filter_congr fun arg _ => ?_)
    exact Bool.eq_iff_iff.mpr (by simp [written_empty])
  rw [join, PathTexts.join, written_normalize, written_intercalate, some]

theorem written_absoluteText (path : List Points) :
    written (absoluteText path) = PathTexts.absoluteText (path.map written) := by
  have front : absoluteText path = [slash] ++ [slash].intercalate path := rfl
  rw [front, written_append, written_intercalate, PathTexts.absoluteText, written_slash]

theorem written_resolve (cwd : Path) (text : Points) : written (resolve cwd text) = PathTexts.resolve cwd (written text) := by
  have here : written (absoluteText (cwd.map ofString)) = PathTexts.absoluteText cwd := by
    rw [written_absoluteText, List.map_map]
    exact congrArg _ (List.map_id'' (fun name => written_ofString name) cwd)
  have same : written (fromCwd cwd text) = PathTexts.fromCwd cwd (written text) := by
    unfold fromCwd PathTexts.fromCwd
    simp only [written_empty, written_isAbsolute]
    split
    · exact here
    · split
      · rfl
      · have front : absoluteText (cwd.map ofString) ++ slash :: text = absoluteText (cwd.map ofString) ++ [slash] ++ text := by
          simp
        rw [front, written_append, written_append, here, written_slash]
  rw [resolve, PathTexts.resolve, written_absoluteText, written_normalizeString, written_split, same, List.map_nil]

end Written

end Countinghouse.WrittenTexts
