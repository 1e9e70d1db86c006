import Countinghouse.ModuleTree

/-!
The path functions of a POSIX host's `path` module on texts: `normalize`, `join` and `resolve`.
Each is set against the place a text leads to from the working directory when no link is on the
way. Nothing here belongs to a particular program.
-/

namespace Countinghouse.PathTexts

open HostTree (Path Seg PathText)
open FileNamespace (lexical resolveText)
open ModuleTree (segOf)

/-! The functions. -/
section Functions

/-- `text.split('/')` -/
def split (text : String) : List String := (text.toList.splitOn '/').map String.ofList

def isAbsolute (text : String) : Bool := text.toList.head? == some '/'

/-- The components kept so far, and those to come; with `allowAboveRoot` a `..` too many is kept. -/
def normalizeString (allowAboveRoot : Bool) (kept : List String) : List String → List String
  | [] => kept
  | part :: rest =>
      match segOf part with
      | .here => normalizeString allowAboveRoot kept rest
      | .name name => normalizeString allowAboveRoot (kept ++ [name]) rest
      | .up =>
          if kept.getLast?.all fun last => last == ".." then
            normalizeString allowAboveRoot (if allowAboveRoot then kept ++ [".."] else kept) rest
          else normalizeString allowAboveRoot kept.dropLast rest

def normalize (text : String) : String :=
  if text = "" then "."
  else
    let kept := "/".intercalate (normalizeString (!isAbsolute text) [] (split text))
    let trailing := if text.toList.getLast? = some '/' then "/" else ""
    if kept = "" then if isAbsolute text then "/" else "." ++ trailing
    else (if isAbsolute text then "/" else "") ++ kept ++ trailing

def join (args : List String) : String := normalize ("/".intercalate (args.filter fun arg => arg != ""))

/-- The text of an absolute path without `.`, `..` and trailing slash, as `process.cwd()` gives it. -/
def absoluteText (path : Path) : String := "/" ++ "/".intercalate path

/-- The text that `resolve` normalises: nothing stands before an absolute one. -/
def fromCwd (cwd : Path) (text : String) : String :=
  if text = "" then absoluteText cwd
  else if isAbsolute text then text
  else absoluteText cwd ++ "/" ++ text

def resolve (cwd : Path) (text : String) : String :=
  absoluteText (normalizeString false [] (split (fromCwd cwd text)))

/-- Where a text leads. -/
def place (cwd : Path) (text : String) : Path := resolveText cwd ⟨isAbsolute text, (split text).map segOf⟩

/-- A component that a normalised text may have. -/
def Plain (part : String) : Prop := segOf part = .name part ∧ '/' ∉ part.toList

instance (part : String) : Decidable (Plain part) := inferInstanceAs (Decidable (_ ∧ _))

end Functions

/-! Splitting. -/
section Splitting

theorem seg_cases (part : String) :
    (segOf part = .here ∧ (part = "" ∨ part = ".")) ∨ (segOf part = .up ∧ part = "..") ∨ segOf part = .name part := by
  unfold segOf
  split
  · next dot => exact Or.inl ⟨rfl, dot⟩
  · split
    · next up => exact Or.inr (Or.inl ⟨rfl, up⟩)
    · exact Or.inr (Or.inr rfl)

theorem plain_ne_empty {part : String} (plain : Plain part) : part ≠ "" := by
  rintro rfl
  exact absurd plain.1 (by decide)

theorem split_slash (front rest : String) : split (front ++ "/" ++ rest) = split front ++ split rest := by
  have parts := List.splitOn_append_cons_self (a := '/') front.toList rest.toList
  simpa [split] using congrArg (List.map String.ofList) parts

theorem split_of_free {part : String} (free : '/' ∉ part.toList) : split part = [part] := by
  simp [split, List.splitOn_eq_singleton free]

theorem split_intercalate {parts : List String} (some : parts ≠ []) (free : ∀ part ∈ parts, '/' ∉ part.toList) :
    split ("/".intercalate parts) = parts := by
  induction parts with
  | nil => exact absurd rfl some
  | cons part rest ih =>
      have alone := split_of_free (free part (by simp))
      cases rest with
      | nil => simpa using alone
      | cons next rest =>
          have later := ih (by simp) fun other mem => free other (List.mem_cons_of_mem part mem)
          rw [String.intercalate_cons_cons, split_slash, alone, later]
          rfl

theorem free_of_mem_split {text part : String} (mem : part ∈ split text) : '/' ∉ part.toList := by
  have pieces (chars : List Char) : ∀ piece ∈ chars.splitOn '/', '/' ∉ piece := by
    induction chars with
    | nil => simp
    | cons head rest ih =>
        rw [List.splitOn_cons_eq_if_modifyHead]
        by_cases slash : head = '/'
        · simpa [slash] using ih
        · have others := List.splitOn_ne_nil '/' rest
          cases parts : rest.splitOn '/' with
          | nil => exact absurd parts others
          | cons first more =>
              rw [parts] at ih
              simp only [List.mem_cons, forall_eq_or_imp] at ih
              simp only [beq_iff_eq, slash, if_false, List.modifyHead_cons, List.mem_cons, forall_eq_or_imp, not_or]
              exact ⟨⟨Ne.symm slash, ih.1⟩, ih.2⟩
  obtain ⟨piece, among, rfl⟩ := List.mem_map.mp mem
  simpa using pieces text.toList piece among

theorem split_inj {first second : String} (same : split first = split second) : first = second := by
  have pieces : first.toList.splitOn '/' = second.toList.splitOn '/' :=
    List.map_injective_iff.mpr (fun _ _ eq => String.ofList_inj.mp eq) same
  have texts := congrArg (List.intercalate ['/']) pieces
  simpa [String.toList_inj] using texts

end Splitting

/-! Where normalised texts lead. -/
section Places

theorem lexical_append (dir : Path) (front rest : List Seg) :
    lexical dir (front ++ rest) = lexical (lexical dir front) rest := by
  simp [lexical]

theorem lexical_plain (dir : Path) {parts : List String} (plain : ∀ part ∈ parts, Plain part) :
    lexical dir (parts.map segOf) = dir ++ parts := by
  induction parts generalizing dir with
  | nil => simp [lexical]
  | cons part rest ih =>
      have later := ih (dir ++ [part]) fun other mem => plain other (List.mem_cons_of_mem part mem)
      rw [List.map_cons, (plain part (by simp)).1]
      simpa [lexical] using later

/-- What `normalizeString` keeps: names, and `..` above a start that is not the root. -/
def Keeps (allowAboveRoot : Bool) (part : String) : Prop :=
  '/' ∉ part.toList ∧ (segOf part = .name part ∨ (allowAboveRoot = true ∧ part = ".."))

theorem normalizeString_keeps (allow : Bool) (kept : List String) {parts : List String}
    (free : ∀ part ∈ parts, '/' ∉ part.toList) (keeps : ∀ part ∈ kept, Keeps allow part) :
    ∀ part ∈ normalizeString allow kept parts, Keeps allow part := by
  induction parts generalizing kept with
  | nil => exact keeps
  | cons part rest ih =>
      have later := fun kept => ih kept fun other mem => free other (List.mem_cons_of_mem part mem)
      have here := free part (by simp)
      rcases seg_cases part with ⟨is, _⟩ | ⟨is, _⟩ | is <;> simp only [normalizeString, is]
      · exact later kept keeps
      · split
        · apply later
          cases allow with
          | false => exact keeps
          | true =>
              intro other mem
              rcases List.mem_append.mp mem with old | new
              · exact keeps other old
              · rw [List.mem_singleton.mp new]
                exact ⟨by decide, Or.inr ⟨rfl, rfl⟩⟩
        · exact later _ fun other mem => keeps other (List.mem_of_mem_dropLast mem)
      · apply later
        intro other mem
        rcases List.mem_append.mp mem with old | new
        · exact keeps other old
        · rw [List.mem_singleton.mp new]
          exact ⟨here, Or.inl is⟩

/-- Behind the root, `..` leads nowhere else; elsewhere it is kept or takes back the last name. -/
theorem lexical_normalizeString (allow : Bool) (kept parts : List String) (dir : Path) (rooted : allow = false → dir = [])
    (keeps : ∀ part ∈ kept, Keeps allow part) (free : ∀ part ∈ parts, '/' ∉ part.toList) :
    lexical dir ((normalizeString allow kept parts).map segOf) = lexical dir ((kept ++ parts).map segOf) := by
  induction parts generalizing kept with
  | nil => simp [normalizeString]
  | cons part rest ih =>
      have later := fun kept keeps => ih kept keeps fun other mem => free other (List.mem_cons_of_mem part mem)
      have here := free part (by simp)
      rcases seg_cases part with ⟨is, _⟩ | ⟨is, isUp⟩ | is <;> simp only [normalizeString, is]
      · rw [later kept keeps]
        simp [lexical, is]
      · split
        · next top =>
          cases allow with
          | true =>
              have more : ∀ other ∈ kept ++ [".."], Keeps true other := by
                intro other mem
                rcases List.mem_append.mp mem with old | new
                · exact keeps other old
                · rw [List.mem_singleton.mp new]
                  exact ⟨by decide, Or.inr ⟨rfl, rfl⟩⟩
              rw [if_pos rfl, later _ more]
              simp [isUp]
          | false =>
              have none : kept = [] := by
                cases List.eq_nil_or_concat kept with
                | inl nil => exact nil
                | inr some =>
                    obtain ⟨front, last, rfl⟩ := some
                    have isLast : last = ".." := by simpa using top
                    have name := (keeps last (by simp)).2
                    rw [isLast] at name
                    exact absurd name (by decide)
              rw [none, if_neg Bool.false_ne_true, later [] (by simp), rooted rfl]
              simp [lexical, is]
        · next below =>
          have some : kept ≠ [] := by
            rintro rfl
            exact below rfl
          obtain ⟨front, last, rfl⟩ := (List.eq_nil_or_concat kept).resolve_left some
          have notUp : last ≠ ".." := by simpa using below
          have isName : segOf last = .name last := (keeps last (by simp)).2.resolve_right fun up => notUp up.2
          rw [later _ fun other mem => keeps other (List.mem_of_mem_dropLast mem)]
          simp [lexical, is, isName]
      · have more : ∀ other ∈ kept ++ [part], Keeps allow other := by
          intro other mem
          rcases List.mem_append.mp mem with old | new
          · exact keeps other old
          · rw [List.mem_singleton.mp new]
            exact ⟨here, Or.inl is⟩
        rw [later _ more]
        simp

theorem place_absoluteText (cwd : Path) {path : Path} (plain : ∀ name ∈ path, Plain name) :
    place cwd (absoluteText path) = path := by
  have text : split (absoluteText path) = split "" ++ split ("/".intercalate path) := by
    simpa [absoluteText] using split_slash "" ("/".intercalate path)
  have absolute : isAbsolute (absoluteText path) = true := by simp [isAbsolute, absoluteText]
  have segs : lexical [] ((split ("/".intercalate path)).map segOf) = path := by
    by_cases nil : path = []
    · rw [nil]
      decide
    · rw [split_intercalate nil fun part mem => (plain part mem).2, lexical_plain [] plain]
      rfl
  have front : split "" = [""] := by decide
  rw [place, absolute, text, front]
  exact segs

theorem split_front_slash (text : String) : split ("/" ++ text) = "" :: split text := by
  have front : split "" = [""] := by decide
  simpa [front] using split_slash "" text

theorem split_end_slash (text : String) : split (text ++ "/") = split text ++ [""] := by
  have front : split "" = [""] := by decide
  simpa [front] using split_slash text ""

theorem normalizeString_plain (allow : Bool) (kept : List String) {parts : List String}
    (plain : ∀ part ∈ parts, Plain part) : normalizeString allow kept parts = kept ++ parts := by
  induction parts generalizing kept with
  | nil => simp [normalizeString]
  | cons part rest ih =>
      have later := fun kept => ih kept fun other mem => plain other (List.mem_cons_of_mem part mem)
      simp only [normalizeString, (plain part (by simp)).1]
      rw [later, List.append_assoc, List.singleton_append]

theorem split_absoluteText {names : List String} (some : names ≠ []) (plain : ∀ name ∈ names, Plain name) :
    split (absoluteText names) = "" :: names := by
  rw [absoluteText, split_front_slash,
    split_intercalate some fun name mem => (plain name mem).2]

theorem absolute_absoluteText (names : List String) : isAbsolute (absoluteText names) = true := by
  simp [isAbsolute, absoluteText]

theorem absoluteText_of_split {text : String} {names : List String} (some : names ≠ []) (plain : ∀ name ∈ names, Plain name)
    (parts : split text = "" :: names) : absoluteText names = text :=
  split_inj ((split_absoluteText some plain).trans parts.symm)

/-- An absolute text without dots resolves to itself. -/
theorem resolve_absoluteText (cwd : Path) {names : List String} (some : names ≠ []) (plain : ∀ name ∈ names, Plain name) :
    resolve cwd (absoluteText names) = absoluteText names := by
  have nonempty : absoluteText names ≠ "" := by simp [absoluteText]
  have parts : normalizeString false [] ("" :: names) = names := by
    rw [normalizeString]
    exact normalizeString_plain false [] plain
  rw [resolve, fromCwd, if_neg nonempty, if_pos (absolute_absoluteText names), split_absoluteText some plain, parts]

theorem keeps_ne_empty {allow : Bool} {part : String} (keeps : Keeps allow part) : part ≠ "" := by
  rintro rfl
  rcases keeps.2 with name | ⟨_, up⟩
  · exact absurd name (by decide)
  · exact absurd up (by decide)

theorem isAbsolute_append {front : String} (some : front ≠ "") (rest : String) :
    isAbsolute (front ++ rest) = isAbsolute front := by
  cases chars : front.toList with
  | nil => exact absurd (String.toList_inj.mp (by simpa using chars)) some
  | cons head tail => simp [isAbsolute, chars]

/-- Joined components are no absolute text: the first one does not begin with a slash. -/
theorem isAbsolute_intercalate (parts : List String) (some : ∀ part ∈ parts, part ≠ "")
    (free : ∀ part ∈ parts, '/' ∉ part.toList) : isAbsolute ("/".intercalate parts) = false := by
  cases parts with
  | nil => decide
  | cons first rest =>
      have alone : isAbsolute first = false := by
        cases chars : first.toList with
        | nil => simp [isAbsolute, chars]
        | cons head tail =>
            have other : head ≠ '/' := by
              rintro rfl
              exact free first (by simp) (by simp [chars])
            simp [isAbsolute, chars, other]
      cases rest with
      | nil => simpa using alone
      | cons next rest =>
          rw [String.intercalate_cons_cons, String.append_assoc, isAbsolute_append (some first (by simp)), alone]

theorem intercalate_eq_empty {parts : List String} (some : ∀ part ∈ parts, part ≠ "")
    (empty : "/".intercalate parts = "") : parts = [] := by
  cases parts with
  | nil => rfl
  | cons first rest =>
      cases rest with
      | nil => exact absurd (by simpa using empty) (some first (by simp))
      | cons next rest => simp at empty

theorem place_absolute (cwd : Path) {text : String} (absolute : isAbsolute text = true) :
    place cwd text = lexical [] ((split text).map segOf) := by
  simp [place, resolveText, PathText.start, absolute]

theorem place_relative (cwd : Path) {text : String} (relative : isAbsolute text = false) :
    place cwd text = lexical cwd ((split text).map segOf) := by
  simp [place, resolveText, PathText.start, relative]

theorem place_end_slash (cwd : Path) {text : String} (some : text ≠ "") :
    place cwd (text ++ "/") = place cwd text := by
  have same := isAbsolute_append some "/"
  cases absolute : isAbsolute text with
  | true => rw [place_absolute cwd absolute, place_absolute cwd (same.trans absolute), split_end_slash]; simp [lexical, segOf]
  | false => rw [place_relative cwd absolute, place_relative cwd (same.trans absolute), split_end_slash]; simp [lexical, segOf]

theorem place_here (cwd : Path) : place cwd "." = cwd := by
  have parts : split "." = ["."] := by decide
  rw [place_relative cwd (by decide), parts]
  rfl

theorem place_normalize (cwd : Path) (text : String) : place cwd (normalize text) = place cwd text := by
  by_cases empty : text = ""
  · have parts : split "" = [""] := by decide
    rw [empty, normalize, if_pos rfl, place_here, place_relative cwd (by decide), parts]
    rfl
  have free : ∀ part ∈ split text, '/' ∉ part.toList := fun part mem => free_of_mem_split mem
  have keeps := normalizeString_keeps (!isAbsolute text) [] free (by simp)
  have nonempty := fun part mem => keeps_ne_empty (keeps part mem)
  have unsplit := isAbsolute_intercalate _ nonempty fun part mem => (keeps part mem).1
  -- the trailing slash leads nowhere
  have whole (shown : String) (some : shown ≠ "") :
      place cwd (shown ++ if text.toList.getLast? = Option.some '/' then "/" else "") = place cwd shown := by
    split
    · exact place_end_slash cwd some
    · rw [String.append_empty]
  rw [normalize, if_neg empty]
  cases absolute : isAbsolute text with
  | true =>
      have same := lexical_normalizeString false [] (split text) [] (fun _ => rfl) (by simp) free
      rw [absolute, Bool.not_true] at keeps nonempty
      rw [place_absolute cwd absolute]
      simp only [Bool.not_true, if_true]
      by_cases none : "/".intercalate (normalizeString false [] (split text)) = ""
      · rw [intercalate_eq_empty nonempty none] at same
        rw [if_pos none]
        exact same
      · have some : normalizeString false [] (split text) ≠ [] := by
          intro nil
          exact none (by simp [nil])
        have parts := split_intercalate some fun part mem => (keeps part mem).1
        rw [if_neg none, whole _ (by simp), place_absolute cwd (by simp [isAbsolute]), split_front_slash, parts]
        exact same
  | false =>
      have same := lexical_normalizeString true [] (split text) cwd (by simp) (by simp) free
      rw [absolute, Bool.not_false] at keeps nonempty unsplit
      rw [place_relative cwd absolute]
      simp only [Bool.not_false, Bool.false_eq_true, if_false, String.empty_append]
      by_cases none : "/".intercalate (normalizeString true [] (split text)) = ""
      · rw [intercalate_eq_empty nonempty none] at same
        rw [if_pos none, whole _ (by simp), place_here]
        exact same
      · have some : normalizeString true [] (split text) ≠ [] := by
          intro nil
          exact none (by simp [nil])
        have parts := split_intercalate some fun part mem => (keeps part mem).1
        rw [if_neg none, whole _ none, place_relative cwd unsplit, parts]
        exact same

theorem normalize_ne_empty (text : String) : normalize text ≠ "" := by
  unfold normalize
  generalize (if text.toList.getLast? = some '/' then "/" else "") = trailing
  split
  · simp
  · simp only
    split
    · split <;> simp
    · next shown => simp [shown]

/-- A joined text leads where its first argument leads, and on from there. -/
theorem place_join (cwd : Path) {first : String} (some : first ≠ "") (parts : List String)
    (plain : ∀ part ∈ parts, Plain part) : place cwd (join (first :: parts)) = place cwd first ++ parts := by
  have nonempty : (first :: parts).filter (fun arg => arg != "") = first :: parts := by
    rw [List.filter_eq_self]
    intro arg mem
    rcases List.mem_cons.mp mem with rfl | mem
    · simpa using some
    · simpa using plain_ne_empty (plain arg mem)
  rw [join, nonempty, place_normalize]
  cases parts with
  | nil => simp
  | cons next rest =>
      have free : ∀ part ∈ next :: rest, '/' ∉ part.toList := fun part mem => (plain part mem).2
      have pieces := split_slash first ("/".intercalate (next :: rest))
      rw [split_intercalate (by simp) free] at pieces
      rw [String.intercalate_cons_cons]
      have same : isAbsolute (first ++ "/" ++ "/".intercalate (next :: rest)) = isAbsolute first := by
        rw [String.append_assoc, isAbsolute_append some]
      cases absolute : isAbsolute first with
      | true =>
          rw [place_absolute cwd absolute, place_absolute cwd (same.trans absolute), pieces, List.map_append,
            lexical_append, lexical_plain _ plain]
      | false =>
          rw [place_relative cwd absolute, place_relative cwd (same.trans absolute), pieces, List.map_append,
            lexical_append, lexical_plain _ plain]

/-- With nothing in front, a joined text leads on from the working directory. -/
theorem place_join_empty (cwd : Path) {part : String} (plain : Plain part) : place cwd (join ["", part]) = cwd ++ [part] := by
  have alone := place_join cwd (plain_ne_empty plain) [] (by simp)
  have same : join ["", part] = join [part] := by simp [join]
  have free := plain.2
  have unsplit : isAbsolute part = false := by
    simpa using isAbsolute_intercalate [part] (by simpa using plain_ne_empty plain) (by simpa using free)
  rw [same, alone, List.append_nil, place_relative cwd unsplit, split_of_free free]
  simp [lexical, plain.1]

/-- `resolve` leads where the text leads. -/
theorem place_resolve {cwd : Path} (plain : ∀ name ∈ cwd, Plain name) (text : String) :
    place cwd (resolve cwd text) = place cwd text ∧ ∀ name ∈ place cwd text, Plain name := by
  have absolute : isAbsolute (fromCwd cwd text) = true := by
    unfold fromCwd
    split
    · simp [absoluteText, isAbsolute]
    · split
      · assumption
      · simp [absoluteText, isAbsolute]
  have same : place cwd (fromCwd cwd text) = place cwd text := by
    have here := place_absoluteText cwd plain
    unfold fromCwd
    split
    · next empty =>
      have parts : split "" = [""] := by decide
      rw [here, empty, place_relative cwd (by decide), parts]
      rfl
    · split
      · rfl
      · next _ relative =>
        have start : isAbsolute (absoluteText cwd) = true := by simp [absoluteText, isAbsolute]
        have nonempty : absoluteText cwd ≠ "" := by simp [absoluteText]
        rw [place_absolute cwd start] at here
        rw [place_absolute cwd (by rw [String.append_assoc, isAbsolute_append nonempty, start]), split_slash, List.map_append,
          lexical_append, here, place_relative cwd (by simpa using relative)]
  have free : ∀ part ∈ split (fromCwd cwd text), '/' ∉ part.toList := fun part mem => free_of_mem_split mem
  have keeps := normalizeString_keeps false [] free (by simp)
  have kept : ∀ part ∈ normalizeString false [] (split (fromCwd cwd text)), Plain part :=
    fun part mem => ⟨(keeps part mem).2.resolve_right (by simp), (keeps part mem).1⟩
  have leads := lexical_normalizeString false [] _ [] (fun _ => rfl) (by simp) free
  rw [lexical_plain [] kept, List.nil_append, List.nil_append, ← place_absolute cwd absolute, same] at leads
  constructor
  · rw [resolve, place_absoluteText cwd kept, leads]
  · rw [← leads]
    exact kept

end Places

end Countinghouse.PathTexts
