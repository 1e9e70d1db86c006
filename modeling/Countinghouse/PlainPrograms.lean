import Mathlib
import Countinghouse.IdentityPrefix

/-!
Texts that the scan of `prefixSource` reads as the language does: the scan knows their white space and
line ends, their comments are closed, and behind no quote mark does a line begin with what only one of
the two takes for more of the expression. Their programs are kept.
-/

namespace Countinghouse.PlainPrograms

open DirectivePrologue EcmascriptText IdentityPrefix

/-- No white space that the scan does not know, CR only in front of LF and behind no backslash, and a
newline behind every `//`, a `*/` behind every `/*`. -/
structure PlainText (source : List Char) : Prop where
  white : ∀ c ∈ source, whiteSpace c = true ∨ lineTerminator c = true → facade.space c = true ∨ c = '\n'
  returns (before rest : List Char) : source = before ++ '\r' :: rest → rest.head? = some '\n'
  escapes (before rest : List Char) : source ≠ before ++ '\\' :: '\r' :: rest
  lineEnds (before rest : List Char) : source = before ++ '/' :: '/' :: rest → '\n' ∈ rest
  blockEnds (before rest : List Char) : source = before ++ '/' :: '*' :: rest → blockEnd rest ≠ none

/-- On a new line behind a quote mark, the table of the scan and the grammar agree. -/
def PlainLiterals (identifierPart : Char → Bool) (source : List Char) : Prop :=
  ∀ before q rest, source = before ++ q :: rest → isQuote q →
    continues ((ecmascript identifierPart).skip rest).1 = goesOn identifierPart ((ecmascript identifierPart).skip rest).1

variable {identifierPart : Char → Bool}

theorem PlainText.behind {before s : List Char} (plain : PlainText (before ++ s)) : PlainText s where
  white c mem := plain.white c (List.mem_append_right before mem)
  returns front rest same := plain.returns (before ++ front) rest (by rw [same, List.append_assoc])
  escapes front rest same := plain.escapes (before ++ front) rest (by rw [same, List.append_assoc])
  lineEnds front rest same := plain.lineEnds (before ++ front) rest (by rw [same, List.append_assoc])
  blockEnds front rest same := plain.blockEnds (before ++ front) rest (by rw [same, List.append_assoc])

theorem PlainText.suffix {s t : List Char} (plain : PlainText s) (isSuffix : t <:+ s) : PlainText t := by
  obtain ⟨before, rfl⟩ := isSuffix
  exact plain.behind

theorem PlainText.tail {c : Char} {s : List Char} (plain : PlainText (c :: s)) : PlainText s := plain.suffix (List.suffix_cons c s)

theorem PlainLiterals.behind {before s : List Char} (plain : PlainLiterals identifierPart (before ++ s)) :
    PlainLiterals identifierPart s := fun front q rest same =>
  plain (before ++ front) q rest (by rw [same, List.append_assoc])

theorem PlainLiterals.tail {c : Char} {s : List Char} (plain : PlainLiterals identifierPart (c :: s)) :
    PlainLiterals identifierPart s := fun front q rest same =>
  plain (c :: front) q rest (congrArg (c :: ·) same)

/-- Only LF and CR end lines. -/
theorem PlainText.terminators {s : List Char} (plain : PlainText s) {c : Char} (mem : c ∈ s) (ends : lineTerminator c = true) :
    c = '\n' ∨ c = '\r' := by
  have known := plain.white c mem (Or.inr ends)
  simp only [lineTerminator, List.mem_cons, List.not_mem_nil, or_false, decide_eq_true_eq] at ends
  rcases ends with rfl | rfl | rfl | rfl
  · exact Or.inl rfl
  · exact Or.inr rfl
  · exact absurd known (by decide)
  · exact absurd known (by decide)

theorem PlainText.endsPlainly {s : List Char} (plain : PlainText s) : endsPlainly s = true := by
  have whole := List.takeWhile_append_dropWhile (p := fun c => !lineTerminator c) (l := s)
  unfold IdentityPrefix.endsPlainly
  cases behind : s.dropWhile fun c => !lineTerminator c with
  | nil => rfl
  | cons c rest =>
      rw [behind] at whole
      have ends : lineTerminator c = true := by
        have first := List.head?_dropWhile_not (fun c => !lineTerminator c) s
        rw [behind] at first
        simpa using first
      rcases plain.terminators (by rw [← whole]; simp) ends with rfl | rfl
      · rfl
      · obtain ⟨more, rfl⟩ := List.head?_eq_some_iff.mp (plain.returns _ rest whole.symm)
        rfl

theorem PlainText.plainLines {source : List Char} (plain : PlainText source) : PlainLines source where
  hashbang _ := by
    obtain ⟨mark, same, -⟩ := unmarked_split source
    rw [same] at plain
    exact plain.behind.endsPlainly
  comment before rest same := by
    rw [same] at plain
    exact plain.behind.tail.tail.endsPlainly

theorem newline_seen (identifierPart : Char → Bool) (rest : List Char) :
    ((ecmascript identifierPart).skip ('\n' :: rest)).2 = true := by
  rw [skip_newline (by simp [ecmascript, whiteSpace]) rfl]

/-- CR is behind a newline what LF alone is. -/
theorem skip_returns {w rest : List Char} (returns : ∀ c ∈ w, c = '\r') :
    (ecmascript identifierPart).skip (w ++ '\n' :: rest) = (ecmascript identifierPart).skip ('\n' :: rest) := by
  have trivia : Trivia (ecmascript identifierPart).toReader w := Trivia.of_white fun c mem => by
    rw [returns c mem]
    exact Or.inr rfl
  rw [trivia.skip, newline_seen, Bool.or_true, ← newline_seen identifierPart rest]

theorem block_newlines {body rest : List Char} (plain : PlainText (body ++ '*' :: rest)) :
    body.any facade.newline = body.any lineTerminator := by
  rw [Bool.eq_iff_iff, List.any_eq_true, List.any_eq_true]
  constructor
  · rintro ⟨c, mem, isNewline⟩
    exact ⟨c, mem, facade_newline isNewline⟩
  rintro ⟨c, mem, ends⟩
  rcases plain.terminators (List.mem_append_left _ mem) ends with rfl | rfl
  · exact ⟨'\n', mem, rfl⟩
  · -- its LF is in the comment too
    obtain ⟨front, behind, rfl⟩ := List.append_of_mem mem
    have feed := plain.returns front (behind ++ '*' :: rest) (by simp)
    cases behind with
    | nil => cases feed
    | cons next behind =>
        cases feed
        exact ⟨'\n', by simp, rfl⟩

/-- The scan skips what the language does. -/
theorem skip_plain (identifierPart : Char → Bool) {s : List Char} (plain : PlainText s) :
    facade.skip s = (ecmascript identifierPart).skip s := by
  have slash := (ecmascript identifierPart).token '/' (by simp)
  induction s using Reader.skip.induct facade with
  | case1 => rw [skip_nil, skip_nil]
  | case2 c rest isSpace ih =>
      by_cases isReturn : c = '\r'
      · subst c
        obtain ⟨more, rfl⟩ := List.head?_eq_some_iff.mp (plain.returns [] rest rfl)
        rw [skip_space isSpace, ih plain.tail]
        exact (skip_returns (w := ['\r']) (by simp)).symm
      · have isWhite : (ecmascript identifierPart).space c = true := by
          simp only [facade, List.mem_cons, List.not_mem_nil, or_false, decide_eq_true_eq, isReturn, false_or] at isSpace
          rcases isSpace with rfl | rfl | rfl | rfl | rfl | rfl <;> rfl
        rw [skip_space isSpace, skip_space isWhite, ih plain.tail]
  | case3 c rest isSpace isNewline ih =>
      have ends : (ecmascript identifierPart).newline c = true := facade_newline isNewline
      have notSpace : ¬(ecmascript identifierPart).space c := fun isWhite => by
        rw [(ecmascript identifierPart).apart c isWhite] at ends
        cases ends
      rw [skip_newline isSpace isNewline, skip_newline notSpace ends, ih plain.tail]
  | case4 c rest isSpace isNewline isLine ih =>
      obtain ⟨rfl, isSlash⟩ := isLine
      obtain ⟨rest, rfl⟩ := List.head?_eq_some_iff.mp isSlash
      obtain ⟨w, returns, same⟩ := line_plain plain.tail.tail.endsPlainly
      obtain ⟨more, isFeed⟩ : ∃ more, rest.dropWhile (· != '\n') = '\n' :: more := by
        have stop := List.head?_dropWhile_not (· != '\n') rest
        cases behind : rest.dropWhile (· != '\n') with
        | nil => exact absurd (List.dropWhile_eq_nil_iff.mp behind '\n' (plain.lineEnds [] rest rfl)) (by decide)
        | cons c more =>
            rw [behind] at stop
            exact ⟨more, by rw [show c = '\n' by simpa using stop]⟩
      have inScan : (('/' :: rest).dropWhile fun c => !facade.endsLine c) = '\n' :: more := isFeed
      have inLanguage : (('/' :: rest).dropWhile fun c => !(ecmascript identifierPart).endsLine c) = w ++ '\n' :: more :=
        same.trans (congrArg (w ++ ·) isFeed)
      rw [inScan] at ih
      rw [skip_line isSpace isNewline ⟨rfl, rfl⟩, skip_line (by simp [slash]) (by simp [slash]) ⟨rfl, rfl⟩, inScan, inLanguage,
        skip_returns returns]
      exact ih (plain.tail.tail.suffix (isFeed ▸ List.dropWhile_suffix _))
  | case5 c rest isSpace isNewline isLine isBlock body after found ih =>
      obtain ⟨rfl, isStar⟩ := isBlock
      obtain ⟨more, rfl⟩ := List.head?_eq_some_iff.mp isStar
      have split : more = body ++ '*' :: '/' :: after := block_end_split found
      have plain' : PlainText (body ++ '*' :: '/' :: after) := split ▸ plain.tail.tail
      have isNewline' : (ecmascript identifierPart).newline = lineTerminator := rfl
      rw [skip_block isSpace isNewline isLine ⟨rfl, rfl⟩ found,
        skip_block (by simp [slash]) (by simp [slash]) isLine ⟨rfl, rfl⟩ found, ih plain'.behind.tail.tail, block_newlines plain', isNewline']
  | case6 c rest isSpace isNewline isLine isBlock found isUnclosed =>
      obtain ⟨rfl, isStar⟩ := isBlock
      obtain ⟨more, rfl⟩ := List.head?_eq_some_iff.mp isStar
      exact absurd found (plain.blockEnds [] more rfl)
  | case7 c rest isSpace isNewline isLine isBlock found isUnclosed => exact absurd rfl isUnclosed
  | case8 c rest isSpace isNewline isLine isBlock =>
      have notWhite : ¬(whiteSpace c = true ∨ lineTerminator c = true) := fun isWhite => by
        rcases plain.white c (by simp) isWhite with known | rfl
        · exact isSpace known
        · exact isNewline rfl
      rw [skip_token isSpace isNewline isLine isBlock]
      exact (skip_token (fun space => notWhite (Or.inl space)) (fun ends => notWhite (Or.inr ends)) isLine isBlock).symm

theorem literal_plain {quote : Char} (quoted : isQuote quote) {s : List Char} (plain : PlainText s) :
    facade.literal quote s = (ecmascript identifierPart).literal quote s := by
  have noFeed : '\n' ≠ quote := by
    rintro rfl
    cases quoted
  induction s using Reader.literal.induct facade quote with
  | case1 => rw [Reader.literal, Reader.literal]
  | case2 rest isPair => cases isPair.1
  | case3 rest isPair ih =>
      have noPair : ¬((ecmascript identifierPart).pairs ∧ rest.take 2 = ['\r', '\n']) := by
        rintro ⟨-, start⟩
        have whole := List.take_append_drop 2 rest
        rw [start] at whole
        exact plain.escapes [] ('\n' :: rest.drop 2) (by rw [← whole]; rfl)
      rw [literal_escape isPair, literal_escape noPair, ih (plain.tail.suffix (List.tail_suffix rest))]
  | case4 rest isEscape => rw [literal_end isEscape, literal_end isEscape]
  | case5 c rest isEscape isEnd isBreak =>
      have isFeed : c = '\n' := by simpa [facade] using isBreak
      subst c
      rw [literal_break isEscape isEnd isBreak, literal_break isEscape isEnd rfl]
  | case6 c rest isEscape isEnd isBreak ih =>
      by_cases isReturn : c = '\r'
      · -- the scan finds no end either, at the LF
        subst c
        obtain ⟨more, rfl⟩ := List.head?_eq_some_iff.mp (plain.returns [] rest rfl)
        rw [literal_char isEscape isEnd isBreak, literal_break (by decide) noFeed rfl, literal_break isEscape isEnd rfl]
        rfl
      · have noBreak : ¬(ecmascript identifierPart).breaks c := by
          simpa [facade, ecmascript, isReturn] using isBreak
        rw [literal_char isEscape isEnd isBreak, literal_char isEscape isEnd noBreak, ih plain.tail]

theorem string_plain (identifierPart : Char → Bool) {s : List Char} (plain : PlainText s) :
    facade.string s = (ecmascript identifierPart).string s := by
  cases s with
  | nil => rfl
  | cons c rest =>
      by_cases quoted : isQuote c
      · rw [Reader.string, Reader.string, if_pos quoted, if_pos quoted, literal_plain quoted plain.tail]
      · rw [Reader.string, Reader.string, if_neg quoted, if_neg quoted]

/-- The literals that the text begins with are statements for both or for neither. -/
theorem directive_plain {s : List Char} (plain : PlainText s) (literals : PlainLiterals identifierPart s) :
    facade.directive s = (ecmascript identifierPart).directive s := by
  rw [Reader.directive, Reader.directive, string_plain identifierPart plain]
  cases found : (ecmascript identifierPart).string s with
  | none => rfl
  | some literal =>
      obtain ⟨l, u⟩ := literal
      obtain ⟨rfl, -⟩ := string_split found
      obtain ⟨q, -, quoted, -, last⟩ := string_quotes found
      obtain ⟨front, rfl⟩ := List.getLast?_eq_some_iff.mp last
      have same := literals front q u (by simp) quoted
      have closes : facade.closes u = (ecmascript identifierPart).closes u := by
        rw [Reader.closes, Reader.closes, skip_plain identifierPart plain.behind]
        exact congrArg _ (congrArg _ (congrArg _ same))
      simp only [Option.filter, closes]

/-- What is skipped is white space and whole comments. -/
theorem skip_trivia (identifierPart : Char → Bool) {s : List Char} (plain : PlainText s) :
    ∃ e p, s = e ++ p ∧ (skipSpaceAndComments s).1 = p ∧ Trivia (ecmascript identifierPart).toReader e := by
  have lines : LinesEnd facade (ecmascript identifierPart) s := plain.plainLines.linesEnd (List.nil_append s).symm
  obtain ⟨e, p, same, trivia, stops | ⟨-, isOpen⟩⟩ := skip_narrower facade_narrower s lines
  · exact ⟨e, p, same, stops, trivia⟩
  · rw [same] at plain
    cases isOpen with
    | @line body inside =>
        have unended : lineTerminator '\n' = false := inside '\n' (plain.behind.lineEnds [] body rfl)
        exact absurd unended (by decide)
    | @block body inside => exact absurd inside (plain.behind.blockEnds [] body rfl)

/-- Behind the last directive, neither sees a further one. -/
theorem no_more_plain {ended : Bool} {s : List Char} (plain : PlainText s)
    (start : ended = false → (skipSpaceAndComments s).1.head? ≠ some ';')
    (isNone : (ecmascript identifierPart).directive (skipSpaceAndComments s).1 = none) :
    (ecmascript identifierPart).directivesFrom ended s = [] := by
  have skipped : ((ecmascript identifierPart).skip s).1 = (skipSpaceAndComments s).1 :=
    congrArg Prod.fst (skip_plain identifierPart plain).symm
  cases ended with
  | false => exact directivesFrom_none skipped (start rfl) isNone
  | true =>
      rw [Reader.directivesFrom, if_pos rfl]
      exact directives_none (by rw [skipped]; exact isNone)

theorem end_no_directive {r : Reader} {p : List Char} (atEnd : p = [] ∨ p.head? = some '}') : r.directive p = none := by
  have noString : r.string p = none := by
    rcases atEnd with rfl | brace
    · rfl
    · obtain ⟨more, rfl⟩ := List.head?_eq_some_iff.mp brace
      simp [Reader.string, isQuote]
  rw [Reader.directive, noString]
  rfl

/-- One directive after the other, the scan reads what the language does. -/
theorem reads_plain {ended : Bool} {s : List Char} (plain : PlainText s) (literals : PlainLiterals identifierPart s)
    (start : ended = false → (skipSpaceAndComments s).1.head? ≠ some ';') : ReadsRight identifierPart ended s := by
  induction length : s.length using Nat.strong_induction_on generalizing ended s with
  | _ n ih =>
      subst n
      obtain ⟨e, p, rfl, skipped, trivia⟩ := skip_trivia identifierPart plain
      have same := directive_plain plain.behind literals.behind
      cases read : facade.directive p with
      | none =>
          rw [read] at same
          exact .stop trivia skipped read (no_more_plain plain start (by rw [skipped]; exact same.symm))
      | some found =>
          obtain ⟨l, u⟩ := found
          obtain ⟨rfl, -⟩ := string_split (directive_iff.mp read).1
          rw [read] at same
          have reads : ReadsDirective identifierPart (e ++ (l ++ u)) l u := ⟨⟨e, rfl, trivia⟩, skipped, same.symm, read⟩
          have shorter : u.length < (l ++ u).length := directive_length read
          have within : (l ++ u).length ≤ (e ++ (l ++ u)).length := by simp
          have plain' : PlainText u := plain.behind.behind
          have literals' : PlainLiterals identifierPart u := literals.behind.behind
          by_cases isSemicolon : (skipSpaceAndComments u).1.head? = some ';'
          · obtain ⟨f, p, rfl, stops, trivia'⟩ := skip_trivia identifierPart plain'
            rw [stops] at isSemicolon
            obtain ⟨z, rfl⟩ := List.head?_eq_some_iff.mp isSemicolon
            have fewer : z.length < (f ++ ';' :: z).length := by simp; omega
            exact .semicolon reads trivia' stops
              (ih z.length (by omega) plain'.behind.tail literals'.behind.tail (by simp) rfl)
          · by_cases isEnd : (skipSpaceAndComments u).1 = [] ∨ (skipSpaceAndComments u).1.head? = some '}'
            · exact .last reads isEnd (no_more_plain plain' (fun _ => isSemicolon) (end_no_directive isEnd))
            · exact .newline reads isSemicolon isEnd (ih u.length (by omega) plain' literals' (fun _ => isSemicolon) rfl)

/-- A plain text that is more than a `#!` line is scanned right. -/
theorem plain_scans {source : List Char} (plain : PlainText source) (literals : PlainLiterals identifierPart source)
    (isMore : (unmarked source).take 2 = ['#', '!'] → '\n' ∈ unmarked source) : ScansRight identifierPart source := by
  obtain ⟨s, start⟩ : ∃ s, scanStart source = some s := by
    by_cases isHashbang : (unmarked source).take 2 = ['#', '!']
    · exact ⟨_, by rw [scanStart, if_pos isHashbang, if_pos (isMore isHashbang)]⟩
    · exact ⟨_, by rw [scanStart, if_neg isHashbang]⟩
  obtain ⟨e, newlines, isCode⟩ := scanStart_plain plain.plainLines start
  obtain ⟨header, isSource, -⟩ := codeOf_split source
  rw [isCode] at isSource
  have plain' : PlainText (header ++ (e ++ s)) := isSource ▸ plain
  have literals' : PlainLiterals identifierPart (header ++ (e ++ s)) := isSource ▸ literals
  exact ⟨e, s, start, isCode, Trivia.of_white fun c mem => Or.inr (newlines c mem),
    reads_plain plain'.behind.behind literals'.behind.behind (by simp)⟩

theorem plain_program_kept {source : List Char} {virtualFile : String} (plain : PlainText source)
    (literals : PlainLiterals identifierPart source) (isMore : (unmarked source).take 2 = ['#', '!'] → '\n' ∈ unmarked source)
    (oneLine : OneLine virtualFile.toList) : ∃ front added rest, KeepsProgram identifierPart source virtualFile front added rest :=
  scans_keeps (plain_scans plain literals isMore) oneLine

end Countinghouse.PlainPrograms
