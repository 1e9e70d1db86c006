import Mathlib
import Countinghouse.CanonicalJson
import Countinghouse.EcmascriptText

/-!
`prefixSource` of lib/single-thread-facade.js puts `var __filename = …, __dirname = …;` into the text
of a CommonJS file, behind its directive prologue as its own scan of the text finds it.
-/

namespace Countinghouse.IdentityPrefix

open CanonicalJson DirectivePrologue EcmascriptText

/-! The facade. -/
section Facade

/-- `CONTINUES`, and the words that `prefixSource` looks for. -/
def continues (s : List Char) : Bool :=
  (s.head?.any fun c => c ∈ ['(', '[', '.', '`', '+', '-', '*', '/', '%', ',', '?', '=', '<', '>', '&', '|', '^', '!']) ||
    beginsWord (fun c => c.isAlphanum || c == '_') ['i', 'n', 's', 't', 'a', 'n', 'c', 'e', 'o', 'f'] s ||
    beginsWord (fun c => c.isAlphanum || c == '_') ['i', 'n'] s

def facade : Reader where
  space c := c ∈ [' ', '\t', '\r', '\u000B', '\u000C', '\u00A0', '\uFEFF']
  newline c := c ∈ ['\n', '\u2028', '\u2029']
  endsLine c := c == '\n'
  unclosed := true
  breaks c := c == '\n'
  pairs := false
  continues := continues

/-- What is left from `i` on, and `sawNewline` -/
def skipSpaceAndComments (s : List Char) : List Char × Bool := facade.skip s

/-- The literal at the start of the text, and what is left behind it. -/
def stringEnd (s : List Char) : Option (List Char × List Char) := facade.string s

/-- `path.posix.dirname` -/
def dirname (path : List Char) : List Char :=
  -- up to the last slash that has something other than slashes behind it
  let dir := (path.reverse.dropWhile (· == '/')).dropWhile (· != '/')
  if dir.length ≤ 1 then if path.head? = some '/' then ['/'] else ['.']
  else if path.head? = some '/' ∧ dir.length = 2 then ['/', '/']
  else dir.tail.reverse

def insert (virtualFile : String) : List Char :=
  ("var __filename = " ++ quote virtualFile ++ ", __dirname = " ++ quote (String.ofList (dirname virtualFile.toList)) ++ ";").toList

/-- Where the scan begins; none for a text that is only a `#!` line. -/
def scanStart (source : List Char) : Option (List Char) :=
  if (unmarked source).take 2 = ['#', '!'] then
    if '\n' ∈ unmarked source then some ((unmarked source).dropWhile (· != '\n')).tail else none
  else some (unmarked source)

/-- The loop: the lead, and the text from the place of the insertion on. -/
def prefixLoop (s : List Char) : List Char × List Char :=
  match _found : stringEnd (skipSpaceAndComments s).1 with
  -- no quote, or no end of the literal
  | none => ([], (skipSpaceAndComments s).1)
  | some (_, q) =>
      if (skipSpaceAndComments q).1.head? = some ';' then prefixLoop (skipSpaceAndComments q).1.tail
      else if (skipSpaceAndComments q).1 = [] ∨ (skipSpaceAndComments q).1.head? = some '}' then ([';'], q)
      else if (skipSpaceAndComments q).2 ∧ ¬continues (skipSpaceAndComments q).1 then prefixLoop q
      -- not a directive: the prologue ends before this string
      else ([], (skipSpaceAndComments s).1)
termination_by s.length
decreasing_by
  · have shorter := string_length ‹_›
    have skipped : (skipSpaceAndComments s).1.length ≤ s.length := skip_length facade s
    have again : (skipSpaceAndComments q).1.length ≤ q.length := skip_length facade q
    rw [List.length_tail]
    omega
  · have shorter := string_length ‹_›
    have skipped : (skipSpaceAndComments s).1.length ≤ s.length := skip_length facade s
    omega

/-- What is inserted, and the text from there on. -/
def insertion (source : List Char) (virtualFile : String) : Option (List Char × List Char) :=
  (scanStart source).map fun s => ((prefixLoop s).1 ++ insert virtualFile, (prefixLoop s).2)

def prefixSource (source : List Char) (virtualFile : String) : List Char :=
  match insertion source virtualFile with
  | none => source
  | some (added, rest) => source.take (source.length - rest.length) ++ added ++ rest

theorem dropWhile_again {p q : Char → Bool} (within : ∀ c, p c = true → q c = true) (s : List Char) :
    (s.dropWhile p).dropWhile q = s.dropWhile q := by
  induction s with
  | nil => rfl
  | cons c rest ih =>
      cases more : p c with
      | true => rw [List.dropWhile_cons_of_pos more, List.dropWhile_cons_of_pos (within c more), ih]
      | false => rw [List.dropWhile_cons_of_neg (by simp [more])]

/-- What ends no line of the language ends none for the scan. -/
theorem dropWhile_line (s : List Char) :
    (s.dropWhile fun c => !lineTerminator c).dropWhile (· != '\n') = s.dropWhile (· != '\n') :=
  dropWhile_again (fun c more => by
    have other : c ≠ '\n' := fun isFeed => by
      subst c
      exact absurd more (by decide)
    simpa using other) s

/-- The scan begins with the code, or behind a `#!` line later than the code. -/
theorem scanStart_behind {source s : List Char} (start : scanStart source = some s) :
    codeOf source = s ∧ (unmarked source).take 2 ≠ ['#', '!'] ∨ s.length < (codeOf source).length := by
  by_cases isHashbang : (unmarked source).take 2 = ['#', '!']
  · rw [scanStart, if_pos isHashbang] at start
    split at start
    case isFalse => cases start
    case isTrue isLine =>
      cases start
      have stops : ((unmarked source).dropWhile (· != '\n')) ≠ [] := fun empty => by
        have all := List.dropWhile_eq_nil_iff.mp empty '\n' isLine
        exact absurd all (by decide)
      have shorter := (List.dropWhile_suffix (l := (unmarked source).dropWhile fun c => !lineTerminator c) (· != '\n')).length_le
      rw [dropWhile_line] at shorter
      rw [codeOf, if_pos isHashbang, List.length_tail]
      have positive := List.length_pos_iff.mpr stops
      exact Or.inr (by omega)
  · rw [scanStart, if_neg isHashbang] at start
    cases start
    exact Or.inl ⟨if_neg isHashbang, isHashbang⟩

/-- The line that the text begins with is ended by LF, by CR LF or by the end of the text. -/
def endsPlainly (s : List Char) : Bool :=
  match s.dropWhile fun c => !lineTerminator c with
  | [] => true
  | '\n' :: _ => true
  | '\r' :: '\n' :: _ => true
  | _ => false

/-- So are the `#!` line and every line with `//` in it. -/
structure PlainLines (source : List Char) : Prop where
  hashbang : (unmarked source).take 2 = ['#', '!'] → endsPlainly (unmarked source) = true
  comment (before rest : List Char) : source = before ++ '/' :: '/' :: rest → endsPlainly rest = true

theorem line_plain {s : List Char} (plain : endsPlainly s = true) :
    ∃ w, (∀ c ∈ w, c = '\r') ∧ (s.dropWhile fun c => !lineTerminator c) = w ++ s.dropWhile (· != '\n') := by
  have behind := dropWhile_line s
  unfold endsPlainly at plain
  split at plain
  case h_1 same => rw [same] at behind ⊢; exact ⟨[], by simp, behind⟩
  case h_2 rest same => rw [same] at behind ⊢; exact ⟨[], by simp, behind⟩
  case h_3 rest same => rw [same] at behind ⊢; exact ⟨['\r'], by simp, congrArg ('\r' :: ·) behind⟩
  case h_4 => cases plain

theorem scanStart_plain {source s : List Char} (plain : PlainLines source) (start : scanStart source = some s) :
    ∃ e, (∀ c ∈ e, lineTerminator c = true) ∧ codeOf source = e ++ s := by
  by_cases isHashbang : (unmarked source).take 2 = ['#', '!']
  · obtain ⟨w, returns, same⟩ := line_plain (plain.hashbang isHashbang)
    rw [scanStart, if_pos isHashbang] at start
    split at start
    case isFalse => cases start
    case isTrue isLine =>
      cases start
      have stop := List.head?_dropWhile_not (· != '\n') (unmarked source)
      cases behind : (unmarked source).dropWhile (· != '\n') with
      | nil => exact absurd (List.dropWhile_eq_nil_iff.mp behind '\n' isLine) (by decide)
      | cons c rest =>
          rw [behind] at same stop
          have isFeed : c = '\n' := by simpa using stop
          subst c
          refine ⟨w ++ ['\n'], fun c mem => ?_, ?_⟩
          · rcases List.mem_append.mp mem with isReturn | isFeed
            · rw [returns c isReturn]
              rfl
            · rw [List.mem_singleton.mp isFeed]
              rfl
          · rw [codeOf, if_pos isHashbang, same]
            simp
  · rw [scanStart, if_neg isHashbang] at start
    cases start
    exact ⟨[], by simp, if_neg isHashbang⟩

theorem facade_closes_iff {s : List Char} : facade.closes s = true ↔
    (skipSpaceAndComments s).1 = [] ∨ (skipSpaceAndComments s).1.head? = some ';' ∨
      (skipSpaceAndComments s).1.head? = some '}' ∨
      (skipSpaceAndComments s).2 = true ∧ continues (skipSpaceAndComments s).1 = false := closes_iff

theorem prefixLoop_stop {s : List Char} (stops : facade.directive (skipSpaceAndComments s).1 = none) :
    prefixLoop s = ([], (skipSpaceAndComments s).1) := by
  rw [prefixLoop]
  split
  case h_1 => rfl
  case h_2 l q found =>
    have notClosed : ¬facade.closes q := fun closes => by
      rw [directive_iff.mpr ⟨found, closes⟩] at stops
      cases stops
    rw [facade_closes_iff, not_or, not_or, not_or, not_and, Bool.not_eq_false] at notClosed
    obtain ⟨notEmpty, notSemicolon, notBrace, continued⟩ := notClosed
    rw [if_neg notSemicolon, if_neg (not_or.mpr ⟨notEmpty, notBrace⟩),
      if_neg fun seen => seen.2 (continued seen.1)]

theorem prefixLoop_directive {s l u : List Char} (read : facade.directive (skipSpaceAndComments s).1 = some (l, u)) :
    prefixLoop s = if (skipSpaceAndComments u).1.head? = some ';' then prefixLoop (skipSpaceAndComments u).1.tail
      else if (skipSpaceAndComments u).1 = [] ∨ (skipSpaceAndComments u).1.head? = some '}' then ([';'], u)
      else prefixLoop u := by
  obtain ⟨isString, closes⟩ := directive_iff.mp read
  rw [prefixLoop]
  split
  case h_1 isNone => rw [stringEnd, isString] at isNone; cases isNone
  case h_2 other q found =>
    rw [stringEnd, isString] at found
    cases found
    by_cases isSemicolon : (skipSpaceAndComments u).1.head? = some ';'
    · rw [if_pos isSemicolon, if_pos isSemicolon]
    by_cases isEnd : (skipSpaceAndComments u).1 = [] ∨ (skipSpaceAndComments u).1.head? = some '}'
    · rw [if_neg isSemicolon, if_neg isSemicolon, if_pos isEnd, if_pos isEnd]
    · have onNewline : (skipSpaceAndComments u).2 = true ∧ continues (skipSpaceAndComments u).1 = false := by
        rcases facade_closes_iff.mp closes with empty | semicolon | brace | onNewline
        · exact absurd (Or.inl empty) isEnd
        · exact absurd semicolon isSemicolon
        · exact absurd (Or.inr brace) isEnd
        · exact onNewline
      rw [if_neg isSemicolon, if_neg isSemicolon, if_neg isEnd, if_neg isEnd, if_pos ⟨onNewline.1, by simp [onNewline.2]⟩]

/-- The place is behind a literal, or where the scan has stopped. -/
theorem prefixLoop_place (s : List Char) : ((prefixLoop s).1 = [] ∨ (prefixLoop s).1 = [';']) ∧
    ∃ x, s = x ++ (prefixLoop s).2 ∧ ((prefixLoop s).2.head? ≠ some '\n' ∨ ∃ q, isQuote q ∧ x.getLast? = some q) := by
  induction length : s.length using Nat.strong_induction_on generalizing s with
  | _ n ih =>
      subst n
      obtain ⟨e, same, -⟩ := skip_split facade s
      cases read : facade.directive (skipSpaceAndComments s).1 with
      | none =>
          rw [prefixLoop_stop read]
          exact ⟨Or.inl rfl, e, same, Or.inl fun stop => (skip_stops facade s stop).2 rfl⟩
      | some found =>
          obtain ⟨l, u⟩ := found
          obtain ⟨split, -⟩ := string_split (directive_iff.mp read).1
          obtain ⟨q, -, quoted, -, last⟩ := string_quotes (directive_iff.mp read).1
          have shorter : u.length < (skipSpaceAndComments s).1.length := directive_length read
          have skipped : (skipSpaceAndComments s).1.length ≤ s.length := skip_length facade s
          have whole : s = e ++ (l ++ u) := same.trans (congrArg (e ++ ·) split)
          rw [prefixLoop_directive read]
          by_cases isSemicolon : (skipSpaceAndComments u).1.head? = some ';'
          · obtain ⟨z, isRest⟩ := List.head?_eq_some_iff.mp isSemicolon
            obtain ⟨f, behind, -⟩ := skip_split facade u
            have fewer : z.length < u.length := by
              rw [behind, show (facade.skip u).1 = ';' :: z from isRest]
              simp
              omega
            obtain ⟨lead, x, inner, place⟩ := ih z.length (by omega) z rfl
            rw [if_pos isSemicolon, isRest, List.tail_cons]
            refine ⟨lead, e ++ (l ++ (f ++ ';' :: x)), ?_, place.imp_right fun ⟨q, quoted, last⟩ => ⟨q, quoted, ?_⟩⟩
            · rw [whole, behind, show (facade.skip u).1 = ';' :: z from isRest]
              nth_rewrite 1 [inner]
              simp
            · simp [List.getLast?_append, List.getLast?_cons, last]
          · rw [if_neg isSemicolon]
            by_cases isEnd : (skipSpaceAndComments u).1 = [] ∨ (skipSpaceAndComments u).1.head? = some '}'
            · rw [if_pos isEnd]
              refine ⟨Or.inr rfl, e ++ l, by rw [whole, List.append_assoc], Or.inr ⟨q, quoted, ?_⟩⟩
              rw [List.getLast?_append, last, Option.some_or]
            · obtain ⟨lead, x, inner, place⟩ := ih u.length (by omega) u rfl
              rw [if_neg isEnd]
              refine ⟨lead, e ++ (l ++ x), ?_, place.imp_right fun ⟨q, quoted, last⟩ => ⟨q, quoted, ?_⟩⟩
              · rw [whole]
                nth_rewrite 1 [inner]
                simp
              · simp [List.getLast?_append, last]

theorem prefixLoop_length (s : List Char) : (prefixLoop s).2.length ≤ s.length := by
  obtain ⟨-, x, same, -⟩ := prefixLoop_place s
  have lengths := congrArg List.length same
  rw [List.length_append] at lengths
  omega

theorem dirname_mem {path : List Char} {c : Char} (mem : c ∈ dirname path) : c ∈ path ∨ c = '/' ∨ c = '.' := by
  unfold dirname at mem
  simp only at mem
  split_ifs at mem
  · simp_all
  · simp_all
  · simp_all
  · have inDir := List.mem_of_mem_tail (List.mem_reverse.mp mem)
    have inPath := (List.dropWhile_suffix _).mem ((List.dropWhile_suffix _).mem inDir)
    exact Or.inl (List.mem_reverse.mp inPath)

/-- A name that breaks no line of the program it stands in: LF and CR are escaped there, LS and PS are not. -/
def OneLine (name : List Char) : Prop := ∀ c ∈ name, c ≠ '\u2028' ∧ c ≠ '\u2029'

theorem hexDigit_oneLine : ∀ value < 16, lineTerminator (hexDigit value) = false := by
  decide

theorem escapeChar_oneLine {c : Char} (oneLine : c ≠ '\u2028' ∧ c ≠ '\u2029') :
    (escapeChar c).all (fun d => !lineTerminator d) = true := by
  unfold escapeChar
  split_ifs with quoted escape back form feed isReturn tab control
  · decide
  · decide
  · decide
  · decide
  · decide
  · decide
  · decide
  · have high := hexDigit_oneLine (c.toNat / 16) (by omega)
    have low := hexDigit_oneLine (c.toNat % 16) (by omega)
    simp only [List.all_cons, high, low]
    decide
  · simp [lineTerminator, feed, isReturn, oneLine]

theorem quote_oneLine {name : List Char} (oneLine : OneLine name) :
    ∀ c ∈ (quote (String.ofList name)).toList, lineTerminator c = false := by
  intro c mem
  simp only [quote, String.toList_ofList, List.cons_append, List.mem_cons, List.mem_append, List.not_mem_nil, or_false] at mem
  rcases mem with rfl | inText | rfl
  · decide
  · obtain ⟨d, isChar, mem⟩ := List.mem_flatMap.mp inText
    simpa using List.all_eq_true.mp (escapeChar_oneLine (oneLine d isChar)) c mem
  · decide

theorem insert_parts (virtualFile : String) :
    insert virtualFile = "var __filename = ".toList ++ (quote virtualFile).toList ++ ", __dirname = ".toList ++
      (quote (String.ofList (dirname virtualFile.toList))).toList ++ [';'] := by
  simp only [insert, String.toList_append]
  rfl

theorem insert_oneLine {virtualFile : String} (oneLine : OneLine virtualFile.toList) :
    ∀ c ∈ insert virtualFile, lineTerminator c = false := by
  have fileLine := quote_oneLine oneLine
  rw [String.ofList_toList] at fileLine
  have dirLine : OneLine (dirname virtualFile.toList) := fun c mem => by
    rcases dirname_mem mem with inFile | rfl | rfl
    · exact oneLine c inFile
    · decide
    · decide
  have front : ∀ c ∈ "var __filename = ".toList, lineTerminator c = false := by
    simp [lineTerminator]
  have middle : ∀ c ∈ ", __dirname = ".toList, lineTerminator c = false := by
    simp [lineTerminator]
  intro c mem
  rw [insert_parts, List.mem_append, List.mem_append, List.mem_append, List.mem_append] at mem
  rcases mem with (((inFront | inFile) | inMiddle) | inDir) | isEnd
  · exact front c inFront
  · exact fileLine c inFile
  · exact middle c inMiddle
  · exact quote_oneLine dirLine c inDir
  · rw [List.mem_singleton.mp isEnd]
    decide

theorem insert_last (virtualFile : String) : (insert virtualFile).getLast? = some ';' := by
  rw [insert_parts, List.getLast?_append]
  rfl

/-- LS and PS are not escaped. -/
theorem insert_breaks {virtualFile : String} (noBreak : lineBreaks (insert virtualFile) = 0) : OneLine virtualFile.toList := by
  have outside (c : Char) (mem : c ∈ virtualFile.toList) (same : escapeChar c = [c]) : c ∈ insert virtualFile := by
    rw [insert_parts, quote, String.toList_ofList]
    have inText : c ∈ escaped virtualFile.toList := List.mem_flatMap.mpr ⟨c, mem, by simp [same]⟩
    simp [inText]
  have unbroken (c : Char) (isBreak : c = '\u2028' ∨ c = '\u2029') (same : escapeChar c = [c]) : c ∉ virtualFile.toList := fun mem =>
    absurd noBreak (lineBreaks_positive (outside c mem same) isBreak).ne'
  intro c mem
  refine ⟨fun isBreak => ?_, fun isBreak => ?_⟩
  · subst c
    exact unbroken _ (Or.inl rfl) (by decide) mem
  · subst c
    exact unbroken _ (Or.inr rfl) (by decide) mem

theorem insert_head (virtualFile : String) : ∃ t, insert virtualFile = 'v' :: t := by
  have front : "var __filename = ".toList = 'v' :: "ar __filename = ".toList := rfl
  rw [insert_parts, front]
  exact ⟨_, rfl⟩

end Facade

/-! What the scan has to read as the language does. -/
section Reading

variable {identifierPart : Char → Bool}

/-- The scan goes over white space and comments to a directive, finds its end and takes it for one. -/
structure ReadsDirective (identifierPart : Char → Bool) (s l u : List Char) : Prop where
  reached : ∃ e, s = e ++ (l ++ u) ∧ Trivia (ecmascript identifierPart).toReader e
  skipped : (skipSpaceAndComments s).1 = l ++ u
  isDirective : (ecmascript identifierPart).directive (l ++ u) = some (l, u)
  read : facade.directive (l ++ u) = some (l, u)

/-- The scan reads the rest of the prologue right: every directive that is left, a semicolon where it
finds one, and behind the last directive white space and comments and no further one. -/
inductive ReadsRight (identifierPart : Char → Bool) : Bool → List Char → Prop where
  | stop {ended : Bool} {e p : List Char} (trivia : Trivia (ecmascript identifierPart).toReader e)
      (skipped : (skipSpaceAndComments (e ++ p)).1 = p) (stops : facade.directive p = none)
      (isLast : (ecmascript identifierPart).directivesFrom ended (e ++ p) = []) : ReadsRight identifierPart ended (e ++ p)
  | last {ended : Bool} {s l u : List Char} (reads : ReadsDirective identifierPart s l u)
      (atEnd : (skipSpaceAndComments u).1 = [] ∨ (skipSpaceAndComments u).1.head? = some '}')
      (isLast : (ecmascript identifierPart).directivesFrom false u = []) : ReadsRight identifierPart ended s
  | semicolon {ended : Bool} {s l e z : List Char} (reads : ReadsDirective identifierPart s l (e ++ ';' :: z))
      (trivia : Trivia (ecmascript identifierPart).toReader e) (seen : (skipSpaceAndComments (e ++ ';' :: z)).1 = ';' :: z)
      (next : ReadsRight identifierPart true z) : ReadsRight identifierPart ended s
  | newline {ended : Bool} {s l u : List Char} (reads : ReadsDirective identifierPart s l u)
      (noSemicolon : (skipSpaceAndComments u).1.head? ≠ some ';')
      (notEnd : ¬((skipSpaceAndComments u).1 = [] ∨ (skipSpaceAndComments u).1.head? = some '}'))
      (next : ReadsRight identifierPart false u) : ReadsRight identifierPart ended s

/-- A statement with `var`, as the language reads it. -/
theorem var_token (t : List Char) : Token (ecmascript identifierPart) ('v' :: t) :=
  skip_token (by simp [ecmascript, whiteSpace]) (by simp [ecmascript, lineTerminator]) (by simp) (by simp)

theorem var_no_directive {ended : Bool} {e : List Char} (trivia : Trivia (ecmascript identifierPart).toReader e) (t : List Char) :
    (ecmascript identifierPart).directivesFrom ended (e ++ 'v' :: t) = [] := by
  have skipped : ((ecmascript identifierPart).skip (e ++ 'v' :: t)).1 = 'v' :: t := by
    rw [trivia.skip, var_token]
  exact directivesFrom_none skipped (by simp) rfl

/-- What the scan has passed is the prologue, and with the insertion behind it it still is. -/
structure Passes (identifierPart : Char → Bool) (ended : Bool) (x : List Char) (ds : List (List Char))
    (lead rest : List Char) : Prop where
  before : Before (ecmascript identifierPart) ended x ds rest
  all : (ecmascript identifierPart).directivesFrom ended (x ++ rest) = ds
  kept (t : List Char) : (ecmascript identifierPart).directivesFrom ended (x ++ (lead ++ 'v' :: t)) = ds

theorem Passes.directive {ended : Bool} {e l x lead rest : List Char} {ds : List (List Char)}
    (passes : Passes identifierPart false x ds lead rest) (trivia : Trivia (ecmascript identifierPart).toReader e)
    (isDirective : (ecmascript identifierPart).directive (l ++ (x ++ rest)) = some (l, x ++ rest))
    (closes : ∀ t, (ecmascript identifierPart).closes (x ++ (lead ++ 'v' :: t)) = true) :
    Passes identifierPart ended (e ++ (l ++ x)) (l :: ds) lead rest where
  before := .directive trivia isDirective passes.before
  all := by
    rw [List.append_assoc, List.append_assoc, directivesFrom_directive trivia isDirective, passes.all]
  kept t := by
    have isString := (string_split (directive_iff.mp isDirective).1).2 (x ++ (lead ++ 'v' :: t))
    rw [List.append_assoc, List.append_assoc, directivesFrom_directive trivia (directive_iff.mpr ⟨isString, closes t⟩),
      passes.kept]

theorem closes_semicolon {e : List Char} (trivia : Trivia (ecmascript identifierPart).toReader e) (t : List Char) :
    (ecmascript identifierPart).closes (e ++ ';' :: t) = true := by
  refine closes_iff.mpr (Or.inr (Or.inl ?_))
  rw [trivia.skip, semicolon_token]
  rfl

/-- Behind a newline, a token that does not go on with an expression. -/
theorem closes_newline {e t : List Char} (trivia : Trivia (ecmascript identifierPart).toReader e)
    (isNewline : e.any lineTerminator = true) (token : Token (ecmascript identifierPart) t)
    (fresh : goesOn identifierPart t = false) : (ecmascript identifierPart).closes (e ++ t) = true := by
  refine closes_iff.mpr (Or.inr (Or.inr (Or.inr ?_)))
  rw [trivia.skip, token]
  exact ⟨(Bool.or_false _).trans isNewline, fresh⟩

theorem facade_newline {c : Char} (isNewline : facade.newline c = true) : lineTerminator c = true := by
  simp only [facade, List.mem_cons, List.not_mem_nil, or_false, decide_eq_true_eq] at isNewline
  rcases isNewline with rfl | rfl | rfl <;> decide

theorem saw_newline {e p : List Char} (skipped : (skipSpaceAndComments (e ++ p)).1 = p)
    (seen : (skipSpaceAndComments (e ++ p)).2 = true) : e.any lineTerminator = true := by
  obtain ⟨front, same, counted⟩ := skip_split facade (e ++ p)
  rw [show (facade.skip (e ++ p)).1 = p from skipped] at same
  obtain ⟨c, mem, isNewline⟩ := List.any_eq_true.mp (counted seen)
  rw [← List.append_cancel_right same] at mem
  exact List.any_eq_true.mpr ⟨c, mem, facade_newline isNewline⟩

theorem Passes.semicolon {e x lead rest : List Char} {ds : List (List Char)} (passes : Passes identifierPart true x ds lead rest)
    (trivia : Trivia (ecmascript identifierPart).toReader e) : Passes identifierPart false (e ++ ';' :: x) ds lead rest where
  before := .semicolon trivia passes.before
  all := by rw [List.append_assoc, List.cons_append, directivesFrom_semicolon trivia, passes.all]
  kept t := by rw [List.append_assoc, List.cons_append, directivesFrom_semicolon trivia, passes.kept]

theorem ReadsDirective.passes {ended : Bool} {s l x lead rest : List Char} {ds : List (List Char)}
    (reads : ReadsDirective identifierPart s l (x ++ rest)) (behind : Passes identifierPart false x ds lead rest)
    (closes : ∀ t, (ecmascript identifierPart).closes (x ++ (lead ++ 'v' :: t)) = true) :
    ∃ x' ds', s = x' ++ rest ∧ Passes identifierPart ended x' ds' lead rest ∧
      ((skipSpaceAndComments s).2 = true → ∀ t, (ecmascript identifierPart).closes (x' ++ (lead ++ 'v' :: t)) = true) := by
  obtain ⟨e, rfl, trivia⟩ := reads.reached
  have isString := (directive_iff.mp reads.isDirective).1
  refine ⟨e ++ (l ++ x), l :: ds, by simp, behind.directive trivia reads.isDirective closes, fun seen t => ?_⟩
  have again := (string_split isString).2 (x ++ (lead ++ 'v' :: t))
  obtain ⟨q, inner, quoted, rfl, -⟩ := string_quotes isString
  rw [List.append_assoc, List.append_assoc]
  exact closes_newline trivia (saw_newline reads.skipped seen) (string_token again) ((ecmascript identifierPart).fresh q _ quoted)

theorem ReadsRight.passes {ended : Bool} {s : List Char} (right : ReadsRight identifierPart ended s) :
    ∃ x ds, s = x ++ (prefixLoop s).2 ∧ Passes identifierPart ended x ds (prefixLoop s).1 (prefixLoop s).2 ∧
      ((skipSpaceAndComments s).2 = true → ∀ t, (ecmascript identifierPart).closes (x ++ ((prefixLoop s).1 ++ 'v' :: t)) = true) := by
  induction right with
  | @stop ended e p trivia skipped stops isLast =>
      have place : prefixLoop (e ++ p) = ([], p) := by
        rw [prefixLoop_stop (by rwa [skipped]), skipped]
      rw [place]
      refine ⟨e, [], rfl, ⟨.gap trivia, isLast, var_no_directive trivia⟩, fun seen t => ?_⟩
      exact closes_newline trivia (saw_newline skipped seen) (var_token t) (by simp [goesOn, beginsWord])
  | @last ended s l u reads atEnd isLast =>
      -- the lead is the semicolon of the last directive
      have notSemicolon : (skipSpaceAndComments u).1.head? ≠ some ';' := by
        rcases atEnd with empty | brace
        · simp [empty]
        · simp [brace]
      have place : prefixLoop s = ([';'], u) := by
        rw [prefixLoop_directive (by rw [reads.skipped]; exact reads.read), if_neg notSemicolon, if_pos atEnd]
      rw [place]
      have behind : Passes identifierPart false [] [] [';'] u :=
        ⟨.gap .nil, isLast, fun t => (directivesFrom_semicolon .nil _).trans (var_no_directive .nil t)⟩
      exact ReadsDirective.passes (x := []) reads behind fun t => closes_semicolon .nil _
  | @semicolon ended s l e z reads trivia seen next ih =>
      have place : prefixLoop s = prefixLoop z := by
        rw [prefixLoop_directive (by rw [reads.skipped]; exact reads.read), seen]
        rfl
      rw [place]
      obtain ⟨x, ds, same, passes, -⟩ := ih
      have whole : e ++ ';' :: z = (e ++ ';' :: x) ++ (prefixLoop z).2 := by
        rw [List.append_assoc, List.cons_append, ← same]
      rw [whole] at reads
      refine reads.passes (passes.semicolon trivia) fun t => ?_
      rw [List.append_assoc]
      exact closes_semicolon trivia _
  | @newline ended s l u reads noSemicolon notEnd next ih =>
      -- the newline that the scan has seen also separates the literal from the insertion
      have place : prefixLoop s = prefixLoop u := by
        rw [prefixLoop_directive (by rw [reads.skipped]; exact reads.read), if_neg noSemicolon, if_neg notEnd]
      rw [place]
      obtain ⟨x, ds, same, passes, closes⟩ := ih
      have seen : (skipSpaceAndComments u).2 = true := by
        rcases facade_closes_iff.mp (directive_iff.mp reads.read).2 with empty | semicolon | brace | onNewline
        · exact absurd (Or.inl empty) notEnd
        · exact absurd semicolon noSemicolon
        · exact absurd (Or.inr brace) notEnd
        · exact onNewline.1
      rw [same] at reads
      exact reads.passes passes (closes seen)

theorem facade_narrower : Narrower facade (ecmascript identifierPart) where
  white c isWhite := by
    simp only [facade, List.mem_cons, List.not_mem_nil, or_false, decide_eq_true_eq] at isWhite
    have known : whiteSpace c = true ∨ lineTerminator c = true := by
      rcases isWhite with (rfl | rfl | rfl | rfl | rfl | rfl | rfl) | rfl | rfl | rfl <;> decide
    exact known
  newline c isNewline := facade_newline isNewline
  ends c isEnd := by
    have isFeed : c = '\n' := by simpa [facade] using isEnd
    subst c
    rfl

theorem PlainLines.linesEnd {source before s : List Char} (plain : PlainLines source) (same : source = before ++ s) :
    LinesEnd facade (ecmascript identifierPart) s := by
  rintro front rest rfl
  obtain ⟨w, returns, behind⟩ := line_plain (plain.comment (before ++ front) rest (by rw [same, List.append_assoc]))
  refine ⟨w, fun c mem => Or.inr ?_, behind⟩
  rw [returns c mem]
  rfl

/-- Where both find the end of a literal, it is the same one. -/
theorem literal_same {quote : Char} (quoted : isQuote quote) {s l u l' u' : List Char}
    (inLanguage : (ecmascript identifierPart).literal quote s = some (l, u)) (inScan : facade.literal quote s = some (l', u')) :
    l = l' ∧ u = u' := by
  have noFeed : '\n' ≠ quote := by
    rintro rfl
    cases quoted
  have single (rest : List Char) : ¬(facade.pairs = true ∧ rest.take 2 = ['\r', '\n']) := fun isPair => nomatch isPair.1
  induction s using Reader.literal.induct (ecmascript identifierPart).toReader quote generalizing l l' with
  | case1 =>
      rw [Reader.literal] at inLanguage
      cases inLanguage
  | case2 rest isPair ih =>
      -- CR LF behind a backslash: the scan ends at the LF
      obtain ⟨-, start⟩ := isPair
      rw [literal_escape (single rest)] at inScan
      obtain ⟨⟨inner, after⟩, isInner, -⟩ := Option.map_eq_some_iff.mp inScan
      have behind : rest.tail = '\n' :: rest.drop 2 := by
        nth_rewrite 1 [← List.take_append_drop 2 rest]
        rw [start]
        rfl
      rw [behind, Reader.literal, if_neg (by decide), if_neg noFeed, if_pos (by decide)] at isInner
      cases isInner
  | case3 rest isPair ih =>
      rw [literal_escape isPair] at inLanguage
      rw [literal_escape (single rest)] at inScan
      obtain ⟨⟨inner, after⟩, isInner, same⟩ := Option.map_eq_some_iff.mp inLanguage
      obtain ⟨⟨inner', after'⟩, isInner', same'⟩ := Option.map_eq_some_iff.mp inScan
      cases same
      cases same'
      obtain ⟨rfl, rfl⟩ := ih isInner isInner'
      exact ⟨rfl, rfl⟩
  | case4 rest isQuote =>
      rw [literal_end isQuote] at inLanguage inScan
      cases inLanguage
      cases inScan
      exact ⟨rfl, rfl⟩
  | case5 c rest isEscape isEnd isBreak =>
      rw [Reader.literal, if_neg isEscape, if_neg isEnd, if_pos isBreak] at inLanguage
      cases inLanguage
  | case6 c rest isEscape isEnd isBreak ih =>
      have goesOn : ¬facade.breaks c := fun isFeed => by
        have same : c = '\n' := by simpa [facade] using isFeed
        subst c
        exact isBreak rfl
      rw [literal_char isEscape isEnd isBreak] at inLanguage
      rw [literal_char isEscape isEnd goesOn] at inScan
      obtain ⟨⟨inner, after⟩, isInner, same⟩ := Option.map_eq_some_iff.mp inLanguage
      obtain ⟨⟨inner', after'⟩, isInner', same'⟩ := Option.map_eq_some_iff.mp inScan
      cases same
      cases same'
      obtain ⟨rfl, rfl⟩ := ih isInner isInner'
      exact ⟨rfl, rfl⟩

theorem string_same {s : List Char} {found found' : List Char × List Char}
    (inLanguage : (ecmascript identifierPart).string s = some found) (inScan : stringEnd s = some found') : found = found' := by
  cases s with
  | nil => cases inLanguage
  | cons q rest =>
      simp only [stringEnd, Reader.string] at inLanguage inScan
      split at inLanguage
      case isFalse => cases inLanguage
      case isTrue quoted =>
        rw [if_pos quoted] at inScan
        obtain ⟨⟨inner, after⟩, isInner, rfl⟩ := Option.map_eq_some_iff.mp inLanguage
        obtain ⟨⟨inner', after'⟩, isInner', rfl⟩ := Option.map_eq_some_iff.mp inScan
        obtain ⟨rfl, rfl⟩ := literal_same quoted isInner isInner'
        rfl

/-- A directive that the scan takes for one is the next of those passed. -/
theorem reads_directive {ended : Bool} {s e l u x rest : List Char} {ds : List (List Char)}
    (before : Before (ecmascript identifierPart) ended x ds rest) (front : s = x ++ rest) (bound : rest.length ≤ u.length)
    (same : s = e ++ (l ++ u)) (trivia : Trivia (ecmascript identifierPart).toReader e)
    (skipped : (skipSpaceAndComments s).1 = l ++ u) (read : facade.directive (l ++ u) = some (l, u)) :
    ∃ x' ds', ds = l :: ds' ∧ u = x' ++ rest ∧ ReadsDirective identifierPart s l u ∧
      Before (ecmascript identifierPart) false x' ds' rest := by
  have isString := (directive_iff.mp read).1
  obtain ⟨q, more, quoted, isMore, -⟩ := string_quotes isString
  have start : l ++ u = q :: (more ++ u) := by
    rw [isMore, List.cons_append]
  obtain ⟨l', x', ds', isFirst, isDirective, behind⟩ := before.behind_quote trivia quoted (by rw [← front, same, start])
    (by rw [List.length_append]; omega)
  rw [← start] at isDirective
  have found := string_same (directive_iff.mp isDirective).1 isString
  obtain ⟨rfl, rfl⟩ := Prod.mk.inj found
  exact ⟨x', ds', isFirst, rfl, ⟨⟨e, same, trivia⟩, skipped, isDirective, read⟩, behind⟩

/-- If what the scan has passed is the prologue, it has read the prologue right. -/
theorem reads_right {ended : Bool} {s x : List Char} {ds : List (List Char)} (lines : LinesEnd facade (ecmascript identifierPart) s)
    (same : s = x ++ (prefixLoop s).2) (before : Before (ecmascript identifierPart) ended x ds (prefixLoop s).2)
    (all : (ecmascript identifierPart).directivesFrom ended s = ds) : ReadsRight identifierPart ended s := by
  induction length : s.length using Nat.strong_induction_on generalizing s x ds ended with
  | _ n ih =>
      subst n
      obtain ⟨e, p, whole, trivia, skipped | ⟨skipped, isOpen⟩⟩ := skip_narrower facade_narrower s lines
      · have skipped : (skipSpaceAndComments s).1 = p := skipped
        cases read : facade.directive p with
        | none =>
            -- the place is where the scan has stopped, so only white space and comments are in front
            rw [prefixLoop_stop (by rwa [skipped]), skipped] at same before
            have isFront := List.append_cancel_right (whole.symm.trans same)
            subst isFront whole
            exact .stop trivia skipped read (all.trans (before.of_trivia trivia))
        | some found =>
            obtain ⟨l, u⟩ := found
            obtain ⟨rfl, -⟩ := string_split (directive_iff.mp read).1
            have place := prefixLoop_directive (by rw [skipped]; exact read)
            have shorter : u.length < s.length := by
              have less := directive_length read
              rw [whole, List.length_append]
              exact Nat.lt_add_left _ less
            -- the step, for wherever the loop goes on behind the literal
            have step (bound : (prefixLoop s).2.length ≤ u.length) := reads_directive before same bound whole trivia skipped read
            have behind (ds' : List (List Char)) (isFirst : ds = l :: ds') (reads : ReadsDirective identifierPart s l u) :
                (ecmascript identifierPart).directivesFrom false u = ds' := by
              rw [whole, directivesFrom_directive trivia reads.isDirective, isFirst] at all
              exact List.tail_eq_of_cons_eq all
            have lines' : LinesEnd facade (ecmascript identifierPart) u := by
              rw [whole, ← List.append_assoc] at lines
              exact lines.behind _
            by_cases isSemicolon : (skipSpaceAndComments u).1.head? = some ';'
            · obtain ⟨z, isRest⟩ := List.head?_eq_some_iff.mp isSemicolon
              obtain ⟨f, p', whole', trivia', stop | ⟨stop, -⟩⟩ := skip_narrower facade_narrower u lines'
              · have isBehind : p' = ';' :: z := stop.symm.trans isRest
                subst isBehind whole'
                have fewer := prefixLoop_length z
                rw [if_pos isSemicolon, isRest, List.tail_cons] at place
                rw [place] at step
                obtain ⟨x', ds', isFirst, isFront, reads, before'⟩ := step (by simp; omega)
                obtain ⟨x'', isRest', before''⟩ := before'.behind_semicolon trivia' isFront.symm fewer
                have more := behind ds' isFirst reads
                rw [directivesFrom_semicolon trivia'] at more
                rw [← List.singleton_append, ← List.append_assoc] at lines'
                have shorter' : z.length < s.length := Nat.lt_trans (by simp; omega) shorter
                exact .semicolon reads trivia' isRest (ih z.length shorter' (lines'.behind _) isRest' before'' more rfl)
              · rw [show (skipSpaceAndComments u).1 = [] from stop] at isRest
                cases isRest
            by_cases isEnd : (skipSpaceAndComments u).1 = [] ∨ (skipSpaceAndComments u).1.head? = some '}'
            · rw [if_neg isSemicolon, if_pos isEnd] at place
              rw [place] at step
              obtain ⟨x', ds', isFirst, isRest, reads, before'⟩ := step (Nat.le_refl _)
              have empty : x' = [] := List.append_cancel_right isRest.symm
              subst empty
              have noMore := before'.of_trivia .nil
              exact .last reads isEnd (by rw [behind ds' isFirst reads, noMore])
            · rw [if_neg isSemicolon, if_neg isEnd] at place
              rw [place] at step
              obtain ⟨x', ds', isFirst, isRest, reads, before'⟩ := step (prefixLoop_length u)
              exact .newline reads isSemicolon isEnd (ih u.length shorter lines' isRest before' (behind ds' isFirst reads) rfl)
      · -- the place is in a comment without an end
        have skipped : (skipSpaceAndComments s).1 = [] := skipped
        obtain ⟨notSemicolon, notDirective⟩ := isOpen.no_statement trivia
        rw [whole, directivesFrom_none rfl notSemicolon notDirective] at all
        subst all
        rw [prefixLoop_stop (by rw [skipped]; rfl), skipped, List.append_nil] at same
        rcases before.without_directive with isTrivia | ⟨e', z, isFront, trivia'⟩
        · rw [← same, whole] at isTrivia
          exact absurd isTrivia (isOpen.not_trivia trivia)
        · rw [← whole, same, isFront, trivia'.skip, semicolon_token] at notSemicolon
          exact absurd rfl notSemicolon

end Reading

/-! The program that is run. -/
section Programs

variable (identifierPart : Char → Bool)

def directivesOf (program : List Char) : List (List Char) := (ecmascript identifierPart).directives (codeOf program)

def IsStrict (program : List Char) : Prop :=
  useStrict '\'' ∈ directivesOf identifierPart program ∨ useStrict '"' ∈ directivesOf identifierPart program

/-- `prefixSource` puts `added` in front of `rest`, and the program stays what it was. -/
structure KeepsProgram (source : List Char) (virtualFile : String) (front added rest : List Char) : Prop where
  isInsertion : insertion source virtualFile = some (added, rest)
  isSource : source = front ++ rest
  result : prefixSource source virtualFile = front ++ (added ++ rest)
  outside : ∃ header x ds, front = header ++ x ∧ codeOf source = x ++ rest ∧ Before (ecmascript identifierPart) true x ds rest
  directives : directivesOf identifierPart (prefixSource source virtualFile) = directivesOf identifierPart source
  strict : IsStrict identifierPart (prefixSource source virtualFile) ↔ IsStrict identifierPart source
  lines : KeepsLines front added rest

/-- The scan begins with the code, white space and comments apart, and reads its prologue right. -/
def ScansRight (source : List Char) : Prop :=
  ∃ e s, scanStart source = some s ∧ codeOf source = e ++ s ∧ Trivia (ecmascript identifierPart).toReader e ∧
    ReadsRight identifierPart true s

variable {identifierPart}

theorem insertion_parts {source added rest : List Char} {virtualFile : String}
    (isInsertion : insertion source virtualFile = some (added, rest)) :
    ∃ s, scanStart source = some s ∧ added = (prefixLoop s).1 ++ insert virtualFile ∧ rest = (prefixLoop s).2 := by
  obtain ⟨s, start, same⟩ := Option.map_eq_some_iff.mp isInsertion
  cases same
  exact ⟨s, start, rfl, rfl⟩

theorem prefixSource_eq {source front added rest : List Char} {virtualFile : String}
    (isInsertion : insertion source virtualFile = some (added, rest)) (isSource : source = front ++ rest) :
    prefixSource source virtualFile = front ++ (added ++ rest) := by
  rw [prefixSource, isInsertion]
  simp [isSource]

/-- What is inserted begins with `var`, behind a semicolon perhaps. -/
theorem added_head {s added : List Char} {virtualFile : String} (isAdded : added = (prefixLoop s).1 ++ insert virtualFile) :
    ∃ t, added = 'v' :: t ∨ added = ';' :: 'v' :: t := by
  obtain ⟨t, isVar⟩ := insert_head virtualFile
  rw [isVar] at isAdded
  rcases (prefixLoop_place s).1 with lead | lead <;> rw [lead] at isAdded
  · exact ⟨t, Or.inl isAdded⟩
  · exact ⟨t, Or.inr isAdded⟩

theorem trivia_head {e : List Char} (trivia : Trivia (ecmascript identifierPart).toReader e) : e.head? ≠ some '#' := by
  cases trivia with
  | nil => simp
  | @white c e isWhite more =>
      rintro ⟨⟩
      have never : ¬(whiteSpace '#' = true ∨ lineTerminator '#' = true) := by decide
      exact never isWhite
  | line => simp
  | block => simp

theorem before_head {ended : Bool} {x rest : List Char} {ds : List (List Char)}
    (before : Before (ecmascript identifierPart) ended x ds rest) : x.head? ≠ some '#' := by
  cases before with
  | gap trivia => exact trivia_head trivia
  | @semicolon e z _ _ trivia behind =>
      cases e with
      | nil => simp
      | cons c e => exact fun isHash => trivia_head trivia isHash
  | @directive _ e l z _ _ trivia isDirective behind =>
      cases e with
      | nil =>
          obtain ⟨q, inner, quoted, rfl, -⟩ := string_quotes (directive_iff.mp isDirective).1
          rintro ⟨⟩
          cases quoted
      | cons c e => exact fun isHash => trivia_head trivia isHash

/-- The code of the result is the code of the source with the insertion. -/
theorem code_insert {source front x added rest : List Char} {virtualFile : String} {ds : List (List Char)}
    (isInsertion : insertion source virtualFile = some (added, rest)) (isSource : source = front ++ rest)
    (isCode : codeOf source = x ++ rest) (before : Before (ecmascript identifierPart) true x ds rest) :
    codeOf (prefixSource source virtualFile) = x ++ (added ++ rest) := by
  obtain ⟨s, start, isAdded, isRest⟩ := insertion_parts isInsertion
  obtain ⟨t, forms⟩ := added_head isAdded
  obtain ⟨header, same, again⟩ := codeOf_split source
  have isFront : front = header ++ x := by
    rw [isCode, ← List.append_assoc, isSource] at same
    exact List.append_cancel_right same
  rw [prefixSource_eq isInsertion isSource, isFront, List.append_assoc]
  cases x with
  | nil =>
      -- behind a `#!` line the scan has at least passed the newline
      have shorter := prefixLoop_length s
      rw [← isRest] at shorter
      have noHashbang : (unmarked source).take 2 ≠ ['#', '!'] := by
        rcases scanStart_behind start with here | later
        · exact here.2
        · rw [isCode, List.nil_append] at later
          omega
      rcases forms with rfl | rfl
      · exact again _ (by simp) (Or.inr ⟨by simp, noHashbang⟩)
      · exact again _ (by simp) (Or.inr ⟨by simp, noHashbang⟩)
  | cons c x => exact again _ (fun isHash => before_head before isHash) (Or.inl (by rw [isCode]; rfl))

/-- A scan that reads the prologue right keeps the program. -/
theorem scans_keeps {source : List Char} {virtualFile : String} (scans : ScansRight identifierPart source)
    (oneLine : OneLine virtualFile.toList) : ∃ front added rest, KeepsProgram identifierPart source virtualFile front added rest := by
  obtain ⟨e, s, start, isCode, trivia, right⟩ := scans
  obtain ⟨x, ds, same, passes, -⟩ := right.passes
  obtain ⟨header, isSource, -⟩ := codeOf_split source
  obtain ⟨lead, x', same', place⟩ := prefixLoop_place s
  have isFront : x = x' := List.append_cancel_right (same.symm.trans same')
  subst isFront
  have isInsertion : insertion source virtualFile = some ((prefixLoop s).1 ++ insert virtualFile, (prefixLoop s).2) := by
    rw [insertion, start, Option.map_some]
  have isCode' : codeOf source = (e ++ x) ++ (prefixLoop s).2 := by
    rw [isCode, List.append_assoc, ← same]
  have isSource' : source = (header ++ (e ++ x)) ++ (prefixLoop s).2 := by
    rw [List.append_assoc, ← isCode', ← isSource]
  have before := passes.before.after_trivia trivia
  have directives : directivesOf identifierPart (prefixSource source virtualFile) = directivesOf identifierPart source := by
    obtain ⟨t, isVar⟩ := insert_head virtualFile
    have kept := passes.kept (t ++ (prefixLoop s).2)
    have all := passes.all
    rw [← same] at all
    rw [directivesOf, directivesOf, code_insert isInsertion isSource' isCode' before, isCode, List.append_assoc,
      directives_trivia trivia, directives_trivia trivia, isVar, List.append_assoc, List.cons_append]
    exact kept.trans all.symm
  refine ⟨_, _, _, isInsertion, isSource', prefixSource_eq isInsertion isSource', ⟨header, e ++ x, ds, rfl, isCode', before⟩,
    directives, by rw [IsStrict, IsStrict, directives], keeps_lines (fun c mem => ?_) ?_ (place.imp_right ?_)⟩
  · rcases List.mem_append.mp mem with inLead | inInsert
    · rcases lead with none | semicolon
      · rw [none] at inLead
        cases inLead
      · rw [semicolon, List.mem_singleton] at inLead
        rw [inLead]
        decide
    · exact insert_oneLine oneLine c inInsert
  · obtain ⟨t, isVar⟩ := insert_head virtualFile
    simp [isVar]
  · rintro ⟨q, quoted, last⟩
    rw [List.getLast?_append, List.getLast?_append, last, Option.some_or, Option.some_or]
    rintro ⟨⟩
    cases quoted

/-- With plain lines, the program is kept only by a scan that reads the prologue right. -/
theorem KeepsProgram.scans {source front added rest : List Char} {virtualFile : String}
    (keeps : KeepsProgram identifierPart source virtualFile front added rest) (plain : PlainLines source) :
    ScansRight identifierPart source := by
  obtain ⟨s, start, isAdded, isRest⟩ := insertion_parts keeps.isInsertion
  obtain ⟨t, forms⟩ := added_head isAdded
  obtain ⟨e, newlines, isCode⟩ := scanStart_plain plain start
  obtain ⟨header, x, ds, isFront, isCode', before⟩ := keeps.outside
  have trivia : Trivia (ecmascript identifierPart).toReader e := Trivia.of_white fun c mem => Or.inr (newlines c mem)
  -- the scan has come as far as the insertion
  obtain ⟨x', rfl, same⟩ : ∃ x', x = e ++ x' ∧ s = x' ++ rest := by
    rcases List.append_eq_append_iff.mp (isCode.symm.trans isCode') with found | ⟨behind, isE, isRest'⟩
    · exact found
    · have shorter := prefixLoop_length s
      rw [← isRest, isRest', List.length_append] at shorter
      have empty : behind = [] := List.eq_nil_of_length_eq_zero (by omega)
      subst empty
      exact ⟨[], by simpa using isE.symm, by simpa using isRest'.symm⟩
  have quiet (ended : Bool) (e : List Char) (trivia : Trivia (ecmascript identifierPart).toReader e) :
      (ecmascript identifierPart).directivesFrom ended (e ++ (added ++ rest)) = [] := by
    rcases forms with rfl | rfl
    · exact var_no_directive trivia _
    · cases ended with
      | false => exact (directivesFrom_semicolon trivia _).trans (var_no_directive .nil _)
      | true =>
          have skipped : ((ecmascript identifierPart).skip (e ++ ';' :: 'v' :: (t ++ rest))).1 = ';' :: 'v' :: (t ++ rest) := by
            rw [trivia.skip, semicolon_token]
          exact directives_none (by rw [if_pos rfl, List.cons_append, List.cons_append, skipped]; rfl)
  have all : (ecmascript identifierPart).directives (e ++ x' ++ rest) = ds := by
    have same := keeps.directives
    rw [directivesOf, directivesOf, code_insert keeps.isInsertion keeps.isSource isCode' before, isCode'] at same
    obtain ⟨more, passed⟩ := before.directives
    have passed : (ecmascript identifierPart).directives (e ++ x' ++ rest) = ds ++ more := passed
    rcases before.directives_insert quiet with found | fewer
    · exact same.symm.trans found
    · have fewer : ((ecmascript identifierPart).directives (e ++ x' ++ (added ++ rest))).length < ds.length := fewer
      rw [same, passed, List.length_append] at fewer
      omega
  obtain ⟨header', isSource, -⟩ := codeOf_split source
  rw [isCode, ← List.append_assoc] at isSource
  rw [List.append_assoc, directives_trivia trivia, ← same] at all
  have before' := before.behind_newlines newlines
  rw [isRest] at before' same
  exact ⟨e, s, start, isCode, trivia, reads_right (plain.linesEnd isSource) same before' all⟩

theorem KeepsProgram.oneLine {source front added rest : List Char} {virtualFile : String}
    (keeps : KeepsProgram identifierPart source virtualFile front added rest) (isText : rest ≠ []) : OneLine virtualFile.toList := by
  obtain ⟨s, -, isAdded, -⟩ := insertion_parts keeps.isInsertion
  obtain ⟨t, forms⟩ := added_head isAdded
  have first : added.head? ≠ some '\n' := by
    rcases forms with rfl | rfl <;> simp
  have last : added.getLast? ≠ some '\r' := by
    rw [isAdded, List.getLast?_append, insert_last]
    simp
  have noBreak := keeps_lines_none keeps.lines isText first last
  rw [isAdded] at noBreak
  have lead : (prefixLoop s).1.getLast? ≠ some '\r' := by
    rcases (prefixLoop_place s).1 with lead | lead <;> simp [lead]
  rw [lineBreaks_append (Or.inr lead)] at noBreak
  exact insert_breaks (Nat.add_eq_zero_iff.mp noBreak).2

/-- The identifier characters of ASCII. -/
def asciiPart (c : Char) : Bool := c.isAlphanum || c == '_' || c == '$'

theorem use_strict_string {r : Reader} (unbroken : (useStrict '\'').all (fun c => !r.breaks c) = true) (rest : List Char) :
    r.string (useStrict '\'' ++ rest) = some (useStrict '\'', rest) := by
  have breaks : ∀ c ∈ useStrict '\'', r.breaks c = false := by simpa using unbroken
  simp only [useStrict, List.mem_cons, List.not_mem_nil, or_false, forall_eq_or_imp, forall_eq] at breaks
  simp [useStrict, Reader.string, Reader.literal, isQuote, breaks]

theorem facade_use_strict (rest : List Char) : facade.string (useStrict '\'' ++ rest) = some (useStrict '\'', rest) :=
  use_strict_string (by decide) rest

theorem ecmascript_use_strict (rest : List Char) :
    (ecmascript asciiPart).string (useStrict '\'' ++ rest) = some (useStrict '\'', rest) :=
  use_strict_string (by decide) rest

theorem skip_use_strict (rest : List Char) :
    skipSpaceAndComments (useStrict '\'' ++ rest) = (useStrict '\'' ++ rest, false) :=
  skip_token (by decide) (by decide) (by simp) (by simp)

/-- The program is kept by a scan that reads its prologue right, if the file name breaks no line; with
plain lines it is kept by no other, and with such a name only where the insertion is the end of the text. -/
theorem program_kept_iff (identifierPart : Char → Bool) (source : List Char) (virtualFile : String) :
    (ScansRight identifierPart source ∧ OneLine virtualFile.toList →
      ∃ front added rest, KeepsProgram identifierPart source virtualFile front added rest) ∧
    (PlainLines source → ∀ front added rest, KeepsProgram identifierPart source virtualFile front added rest →
      ScansRight identifierPart source ∧ (OneLine virtualFile.toList ∨ rest = [])) := by
  refine ⟨fun ⟨scans, oneLine⟩ => scans_keeps scans oneLine, fun plain front added rest keeps => ⟨keeps.scans plain, ?_⟩⟩
  by_cases isEnd : rest = []
  · exact Or.inr isEnd
  · exact Or.inl (keeps.oneLine isEnd)

theorem program_kept_semicolon : ∃ front added rest,
    KeepsProgram asciiPart (useStrict '\'' ++ [';', 'f', '(', ')']) "/app/index.js" front added rest := by
  have skipped : skipSpaceAndComments [';', 'f', '(', ')'] = ([';', 'f', '(', ')'], false) :=
    skip_token (by decide) (by decide) (by simp) (by simp)
  have skipped' : (ecmascript asciiPart).skip [';', 'f', '(', ')'] = ([';', 'f', '(', ')'], false) := semicolon_token _
  have behind : skipSpaceAndComments ['f', '(', ')'] = (['f', '(', ')'], false) :=
    skip_token (by decide) (by decide) (by simp) (by simp)
  have behind' : (ecmascript asciiPart).skip ['f', '(', ')'] = (['f', '(', ')'], false) :=
    skip_token (by decide) (by decide) (by simp) (by simp)
  have reads : ReadsDirective asciiPart (useStrict '\'' ++ [';', 'f', '(', ')']) (useStrict '\'') [';', 'f', '(', ')'] := by
    refine ⟨⟨[], rfl, .nil⟩, by rw [skip_use_strict], directive_iff.mpr ⟨ecmascript_use_strict _, ?_⟩,
      directive_iff.mpr ⟨facade_use_strict _, ?_⟩⟩
    · exact closes_iff.mpr (Or.inr (Or.inl (by rw [skipped']; rfl)))
    · exact facade_closes_iff.mpr (Or.inr (Or.inl (by rw [skipped]; rfl)))
  have isLast : (ecmascript asciiPart).directivesFrom true (['f', '(', ')']) = [] := directivesFrom_none (by rw [behind']) (by simp) rfl
  have stops : ReadsRight asciiPart true ['f', '(', ')'] := .stop .nil (by rw [List.nil_append, behind]) rfl isLast
  have scans : ScansRight asciiPart (useStrict '\'' ++ [';', 'f', '(', ')']) :=
    ⟨[], _, rfl, rfl, .nil, .semicolon (e := []) reads .nil (by rw [List.nil_append, skipped]) stops⟩
  have oneLine : OneLine "/app/index.js".toList := by
    simp [OneLine]
  exact (program_kept_iff asciiPart _ _).1 ⟨scans, oneLine⟩

/-- CR ends a line of the language, and is no newline to the scan. -/
theorem return_ends_no_line : ¬∃ front added rest,
    KeepsProgram asciiPart (useStrict '\'' ++ ['\r', 'f', '(', ')']) "/app/index.js" front added rest := by
  rintro ⟨front, added, rest, keeps⟩
  have notRead : facade.directive (useStrict '\'' ++ ['\r', 'f', '(', ')']) = none := by
    have sameLine : facade.closes ['\r', 'f', '(', ')'] = false := by
      rw [Reader.closes, skip_space (by decide), skip_token (by decide) (by decide) (by simp) (by simp)]
      decide
    rw [Reader.directive, facade_use_strict, Option.filter, sameLine]
    rfl
  have isDirective : (ecmascript asciiPart).directive (useStrict '\'' ++ ['\r', 'f', '(', ')']) =
      some (useStrict '\'', ['\r', 'f', '(', ')']) := by
    refine directive_iff.mpr ⟨ecmascript_use_strict _, ?_⟩
    rw [Reader.closes, skip_newline (by decide) (by decide), skip_token (by decide) (by decide) (by simp) (by simp)]
    decide
  have place : prefixLoop (useStrict '\'' ++ ['\r', 'f', '(', ')']) = ([], useStrict '\'' ++ ['\r', 'f', '(', ')']) := by
    rw [prefixLoop_stop (by rw [skip_use_strict]; exact notRead), skip_use_strict]
  have start : scanStart (useStrict '\'' ++ ['\r', 'f', '(', ')']) = some (useStrict '\'' ++ ['\r', 'f', '(', ')']) := rfl
  have isCode : codeOf (useStrict '\'' ++ ['\r', 'f', '(', ')']) = useStrict '\'' ++ ['\r', 'f', '(', ')'] := rfl
  obtain ⟨s, start', isAdded, isRest⟩ := insertion_parts keeps.isInsertion
  obtain ⟨header, x, ds, -, isCode', before⟩ := keeps.outside
  obtain ⟨t, isVar⟩ := insert_head "/app/index.js"
  rw [start, Option.some.injEq] at start'
  rw [← start', place] at isAdded isRest
  rw [isVar, List.nil_append] at isAdded
  -- the insertion has become the first statement, and the source begins with a directive
  have same := keeps.directives
  rw [directivesOf, directivesOf, code_insert keeps.isInsertion keeps.isSource isCode' before, isCode] at same
  rw [isRest, isCode] at isCode'
  have empty : x = [] := List.append_cancel_right isCode'.symm
  have first := directives_some (by rw [string_token (ecmascript_use_strict ['\r', 'f', '(', ')'])]; exact isDirective)
  have none : (ecmascript asciiPart).directivesFrom true ([] ++ 'v' :: (t ++ rest)) = [] := var_no_directive .nil _
  rw [empty, isAdded, first] at same
  exact absurd (none.symm.trans same) (List.cons_ne_nil _ _).symm

end Programs

end Countinghouse.IdentityPrefix
