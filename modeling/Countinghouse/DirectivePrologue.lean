import Mathlib

/-!
The directive prologue of a program text: the string literals that it begins with, each a statement
of its own. A reader says what is white space, where a comment or a literal ends, and which texts go
on with an expression on the line before; a language is a reader that is consistent, and another
program's idea of it a second reader. Nothing here belongs to a particular program.
-/

namespace Countinghouse.DirectivePrologue

def isQuote (c : Char) : Bool := c = '\'' ∨ c = '"'

/-! Readers. -/
section Readers

structure Reader where
  /-- White space that is no newline. -/
  space : Char → Bool
  newline : Char → Bool
  /-- Ends a `//` comment, of which it is no part. -/
  endsLine : Char → Bool
  /-- An unclosed `/*` is a comment up to the end of the text. -/
  unclosed : Bool
  /-- Has no place in a literal. -/
  breaks : Char → Bool
  /-- CR LF behind a backslash is one character. -/
  pairs : Bool
  /-- On a new line, the text goes on with the expression before it. -/
  continues : List Char → Bool

/-- The body of a block comment, and what stands behind it. -/
def blockEnd : List Char → Option (List Char × List Char)
  | [] => none
  | c :: rest =>
      if c = '*' ∧ rest.head? = some '/' then some ([], rest.tail)
      else (blockEnd rest).map fun found => (c :: found.1, found.2)

theorem block_end_closed (after : List Char) : blockEnd ('*' :: '/' :: after) = some ([], after) := rfl

theorem block_end_open {c : Char} {rest : List Char} (isOpen : ¬(c = '*' ∧ rest.head? = some '/')) :
    blockEnd (c :: rest) = (blockEnd rest).map fun found => (c :: found.1, found.2) := if_neg isOpen

theorem block_end_split {s body after : List Char} (found : blockEnd s = some (body, after)) :
    s = body ++ '*' :: '/' :: after := by
  induction s generalizing body with
  | nil => cases found
  | cons c rest ih =>
      by_cases closing : c = '*' ∧ rest.head? = some '/'
      · obtain ⟨rfl, next⟩ := closing
        obtain ⟨more, rfl⟩ := List.head?_eq_some_iff.mp next
        rw [block_end_closed] at found
        cases found
        rfl
      · rw [block_end_open closing] at found
        obtain ⟨⟨inner, after⟩, isInner, same⟩ := Option.map_eq_some_iff.mp found
        cases same
        rw [ih isInner, List.cons_append]

theorem block_end_body {s body after : List Char} (found : blockEnd s = some (body, after)) :
    blockEnd (body ++ ['*', '/']) = some (body, []) := by
  induction s generalizing body with
  | nil => cases found
  | cons c rest ih =>
      by_cases closing : c = '*' ∧ rest.head? = some '/'
      · obtain ⟨rfl, next⟩ := closing
        obtain ⟨more, rfl⟩ := List.head?_eq_some_iff.mp next
        rw [block_end_closed] at found
        cases found
        rfl
      · rw [block_end_open closing] at found
        obtain ⟨⟨inner, after⟩, isInner, same⟩ := Option.map_eq_some_iff.mp found
        cases same
        have stillOpen : ¬(c = '*' ∧ (inner ++ ['*', '/']).head? = some '/') := by
          rw [block_end_split isInner] at closing
          cases inner with
          | nil => simp
          | cons next inner => exact closing
        rw [List.cons_append, block_end_open stillOpen, ih isInner]
        rfl

theorem block_end_length {s body after : List Char} (found : blockEnd s = some (body, after)) : after.length < s.length := by
  rw [block_end_split found]
  simp
  omega

theorem block_end_append {s body after : List Char} (found : blockEnd s = some (body, after)) (more : List Char) :
    blockEnd (s ++ more) = some (body, after ++ more) := by
  induction s generalizing body with
  | nil => cases found
  | cons c rest ih =>
      by_cases closing : c = '*' ∧ rest.head? = some '/'
      · obtain ⟨rfl, next⟩ := closing
        obtain ⟨tail, rfl⟩ := List.head?_eq_some_iff.mp next
        rw [block_end_closed] at found
        cases found
        exact block_end_closed _
      · rw [block_end_open closing] at found
        obtain ⟨⟨inner, after⟩, isInner, same⟩ := Option.map_eq_some_iff.mp found
        cases same
        -- the slash would be the first character behind the text, which is closed before that
        have stillOpen : ¬(c = '*' ∧ (rest ++ more).head? = some '/') := by
          cases rest with
          | nil => cases isInner
          | cons next rest => exact closing
        rw [List.cons_append, block_end_open stillOpen, ih isInner]
        rfl

/-- What stands behind white space and comments, and whether there is a newline among these. -/
def Reader.skip (r : Reader) : List Char → List Char × Bool
  | [] => ([], false)
  | c :: rest =>
      if r.space c then r.skip rest
      else if r.newline c then ((r.skip rest).1, true)
      else if c = '/' ∧ rest.head? = some '/' then r.skip (rest.dropWhile fun c => !r.endsLine c)
      else if c = '/' ∧ rest.head? = some '*' then
        match _found : blockEnd rest.tail with
        | some (body, after) => ((r.skip after).1, body.any r.newline || (r.skip after).2)
        | none => if r.unclosed then ([], rest.any r.newline) else (c :: rest, false)
      else (c :: rest, false)
termination_by s => s.length
decreasing_by
  · simp
  · simp
  · have shorter := (List.dropWhile_suffix (l := rest) fun c => !r.endsLine c).length_le
    rw [List.length_cons]
    omega
  · have shorter := block_end_length ‹_›
    rw [List.length_tail] at shorter
    rw [List.length_cons]
    omega

/-- The rest of a literal that has been opened with the quote, and what stands behind it. -/
def Reader.literal (r : Reader) (quote : Char) : List Char → Option (List Char × List Char)
  | [] => none
  | c :: rest =>
      if c = '\\' then
        if r.pairs ∧ rest.take 2 = ['\r', '\n'] then
          (r.literal quote (rest.drop 2)).map fun found => (c :: rest.take 2 ++ found.1, found.2)
        else (r.literal quote rest.tail).map fun found => (c :: rest.take 1 ++ found.1, found.2)
      else if c = quote then some ([c], rest)
      else if r.breaks c then none
      else (r.literal quote rest).map fun found => (c :: found.1, found.2)
termination_by s => s.length
decreasing_by
  · simp
  · simp
  · simp

/-- The literal that the text begins with, and what stands behind it. -/
def Reader.string (r : Reader) : List Char → Option (List Char × List Char)
  | [] => none
  | c :: rest => if isQuote c then (r.literal c rest).map fun found => (c :: found.1, found.2) else none

/-- A literal is a statement if this stands behind it. -/
def Reader.closes (r : Reader) (s : List Char) : Bool :=
  let after := r.skip s
  after.1.isEmpty || after.1.head? == some ';' || after.1.head? == some '}' || (after.2 && !r.continues after.1)

/-- The literal that the text begins with if it is a statement, and what stands behind it. -/
def Reader.directive (r : Reader) (s : List Char) : Option (List Char × List Char) :=
  (r.string s).filter fun found => r.closes found.2

/-- What stands behind the semicolon of a statement, if it has one. -/
def Reader.statementEnd (r : Reader) (s : List Char) : List Char :=
  if (r.skip s).1.head? = some ';' then (r.skip s).1.tail else s

/-! What a reader skips, by what the text begins with. -/
section Skipping

variable {r : Reader} {c : Char} {rest : List Char}

theorem skip_nil (r : Reader) : r.skip [] = ([], false) := by
  rw [Reader.skip]

theorem skip_space (isSpace : r.space c) : r.skip (c :: rest) = r.skip rest := by
  rw [Reader.skip, if_pos isSpace]

theorem skip_newline (isSpace : ¬r.space c) (isNewline : r.newline c) : r.skip (c :: rest) = ((r.skip rest).1, true) := by
  rw [Reader.skip, if_neg isSpace, if_pos isNewline]

theorem skip_line (isSpace : ¬r.space c) (isNewline : ¬r.newline c) (isLine : c = '/' ∧ rest.head? = some '/') :
    r.skip (c :: rest) = r.skip (rest.dropWhile fun c => !r.endsLine c) := by
  rw [Reader.skip, if_neg isSpace, if_neg isNewline, if_pos isLine]

theorem skip_block (isSpace : ¬r.space c) (isNewline : ¬r.newline c) (isLine : ¬(c = '/' ∧ rest.head? = some '/'))
    (isBlock : c = '/' ∧ rest.head? = some '*') {body after : List Char} (found : blockEnd rest.tail = some (body, after)) :
    r.skip (c :: rest) = ((r.skip after).1, body.any r.newline || (r.skip after).2) := by
  rw [Reader.skip, if_neg isSpace, if_neg isNewline, if_neg isLine, if_pos isBlock]
  split
  case h_1 isSome => rw [found] at isSome; cases isSome; rfl
  case h_2 isNone => rw [found] at isNone; cases isNone

theorem skip_unclosed (isSpace : ¬r.space c) (isNewline : ¬r.newline c) (isLine : ¬(c = '/' ∧ rest.head? = some '/'))
    (isBlock : c = '/' ∧ rest.head? = some '*') (found : blockEnd rest.tail = none) :
    r.skip (c :: rest) = if r.unclosed then ([], rest.any r.newline) else (c :: rest, false) := by
  rw [Reader.skip, if_neg isSpace, if_neg isNewline, if_neg isLine, if_pos isBlock]
  split
  case h_1 isSome => rw [found] at isSome; cases isSome
  case h_2 => rfl

theorem skip_token (isSpace : ¬r.space c) (isNewline : ¬r.newline c) (isLine : ¬(c = '/' ∧ rest.head? = some '/'))
    (isBlock : ¬(c = '/' ∧ rest.head? = some '*')) : r.skip (c :: rest) = (c :: rest, false) := by
  rw [Reader.skip, if_neg isSpace, if_neg isNewline, if_neg isLine, if_neg isBlock]

/-- What is skipped stands in front, and a newline is counted only if there is one in it. -/
theorem skip_split (r : Reader) (s : List Char) :
    ∃ e, s = e ++ (r.skip s).1 ∧ ((r.skip s).2 = true → e.any r.newline = true) := by
  induction s using Reader.skip.induct r with
  | case1 => exact ⟨[], by simp [skip_nil]⟩
  | case2 c rest isSpace ih =>
      obtain ⟨e, same, counted⟩ := ih
      rw [skip_space isSpace]
      exact ⟨c :: e, congrArg (c :: ·) same, fun seen => by simp [counted seen]⟩
  | case3 c rest isSpace isNewline ih =>
      obtain ⟨e, same, -⟩ := ih
      rw [skip_newline isSpace isNewline]
      exact ⟨c :: e, congrArg (c :: ·) same, fun _ => by simp [isNewline]⟩
  | case4 c rest isSpace isNewline isLine ih =>
      obtain ⟨e, same, counted⟩ := ih
      rw [skip_line isSpace isNewline isLine]
      refine ⟨c :: (rest.takeWhile fun c => !r.endsLine c) ++ e, ?_, fun seen => by simp [counted seen]⟩
      rw [List.append_assoc, ← same, List.cons_append, List.takeWhile_append_dropWhile]
  | case5 c rest isSpace isNewline isLine isBlock body after found ih =>
      obtain ⟨e, same, counted⟩ := ih
      obtain ⟨more, rfl⟩ := List.head?_eq_some_iff.mp isBlock.2
      have split := block_end_split found
      rw [List.tail_cons] at split
      rw [skip_block isSpace isNewline isLine isBlock found]
      refine ⟨c :: '*' :: (body ++ '*' :: '/' :: e), ?_, fun seen => ?_⟩
      · rw [split]
        nth_rewrite 1 [same]
        simp
      · rcases (Bool.or_eq_true _ _).mp seen with inBody | inRest
        · simp [inBody]
        · simp [counted inRest]
  | case6 c rest isSpace isNewline isLine isBlock found isUnclosed =>
      rw [skip_unclosed isSpace isNewline isLine isBlock found, if_pos isUnclosed]
      refine ⟨c :: rest, by simp, fun seen => ?_⟩
      rw [List.any_cons, Bool.or_eq_true]
      exact Or.inr seen
  | case7 c rest isSpace isNewline isLine isBlock found isUnclosed =>
      rw [skip_unclosed isSpace isNewline isLine isBlock found, if_neg isUnclosed]
      exact ⟨[], rfl, fun seen => nomatch seen⟩
  | case8 c rest isSpace isNewline isLine isBlock =>
      rw [skip_token isSpace isNewline isLine isBlock]
      exact ⟨[], rfl, fun seen => nomatch seen⟩

theorem skip_length (r : Reader) (s : List Char) : (r.skip s).1.length ≤ s.length := by
  obtain ⟨e, same, -⟩ := skip_split r s
  have lengths := congrArg List.length same
  rw [List.length_append] at lengths
  omega

/-- A reader stops in front of a token. -/
theorem skip_stops (r : Reader) (s : List Char) {c : Char} (stop : (r.skip s).1.head? = some c) :
    ¬r.space c ∧ ¬r.newline c := by
  induction s using Reader.skip.induct r with
  | case1 => simp [skip_nil] at stop
  | case2 first rest isSpace ih => exact ih (by rwa [skip_space isSpace] at stop)
  | case3 first rest isSpace isNewline ih => exact ih (by rwa [skip_newline isSpace isNewline] at stop)
  | case4 first rest isSpace isNewline isLine ih => exact ih (by rwa [skip_line isSpace isNewline isLine] at stop)
  | case5 first rest isSpace isNewline isLine isBlock body after found ih =>
      exact ih (by rwa [skip_block isSpace isNewline isLine isBlock found] at stop)
  | case6 first rest isSpace isNewline isLine isBlock found isUnclosed =>
      rw [skip_unclosed isSpace isNewline isLine isBlock found, if_pos isUnclosed] at stop
      cases stop
  | case7 first rest isSpace isNewline isLine isBlock found isUnclosed =>
      rw [skip_unclosed isSpace isNewline isLine isBlock found, if_neg isUnclosed] at stop
      cases stop
      exact ⟨isSpace, isNewline⟩
  | case8 first rest isSpace isNewline isLine isBlock =>
      rw [skip_token isSpace isNewline isLine isBlock] at stop
      cases stop
      exact ⟨isSpace, isNewline⟩

end Skipping

/-! Literals. -/
section Literals

variable {r : Reader} {quote c : Char} {rest : List Char}

theorem literal_pair (isPair : r.pairs ∧ rest.take 2 = ['\r', '\n']) : r.literal quote ('\\' :: rest) =
    (r.literal quote (rest.drop 2)).map fun found => ('\\' :: rest.take 2 ++ found.1, found.2) := by
  rw [Reader.literal, if_pos rfl, if_pos isPair]

theorem literal_escape (isPair : ¬(r.pairs ∧ rest.take 2 = ['\r', '\n'])) : r.literal quote ('\\' :: rest) =
    (r.literal quote rest.tail).map fun found => ('\\' :: rest.take 1 ++ found.1, found.2) := by
  rw [Reader.literal, if_pos rfl, if_neg isPair]

theorem literal_end (isQuote : ¬quote = '\\') : r.literal quote (quote :: rest) = some ([quote], rest) := by
  rw [Reader.literal, if_neg isQuote, if_pos rfl]

theorem literal_char (isEscape : ¬c = '\\') (isEnd : ¬c = quote) (isBreak : ¬r.breaks c) :
    r.literal quote (c :: rest) = (r.literal quote rest).map fun found => (c :: found.1, found.2) := by
  rw [Reader.literal, if_neg isEscape, if_neg isEnd, if_neg isBreak]

theorem literal_break (isEscape : ¬c = '\\') (isEnd : ¬c = quote) (isBreak : r.breaks c) :
    r.literal quote (c :: rest) = none := by
  rw [Reader.literal, if_neg isEscape, if_neg isEnd, if_pos isBreak]

/-- A literal ends at a quote, and does not depend on what stands behind it. -/
theorem literal_split {s l u : List Char} (found : r.literal quote s = some (l, u)) :
    s = l ++ u ∧ l.getLast? = some quote ∧ ∀ y, r.literal quote (l ++ y) = some (l, y) := by
  induction s using Reader.literal.induct r quote generalizing l u with
  | case1 =>
      rw [Reader.literal] at found
      cases found
  | case2 rest isPair ih =>
      rw [literal_pair isPair] at found
      obtain ⟨⟨inner, after⟩, isInner, same⟩ := Option.map_eq_some_iff.mp found
      obtain ⟨split, last, more⟩ := ih isInner
      rw [isPair.2] at same
      cases same
      have whole : rest = ['\r', '\n'] ++ (inner ++ after) := by
        rw [← split, ← isPair.2, List.take_append_drop]
      refine ⟨congrArg ('\\' :: ·) whole, by rw [List.getLast?_append, last, Option.some_or], fun y => ?_⟩
      rw [List.append_assoc, List.cons_append, literal_pair ⟨isPair.1, by simp⟩]
      simp [more]
  | case3 rest isPair ih =>
      rw [literal_escape isPair] at found
      obtain ⟨⟨inner, after⟩, isInner, same⟩ := Option.map_eq_some_iff.mp found
      obtain ⟨split, last, more⟩ := ih isInner
      cases same
      cases rest with
      | nil =>
          rw [List.tail_nil, Reader.literal] at isInner
          cases isInner
      | cons next rest =>
          rw [List.tail_cons] at split
          subst split
          cases inner with
          | nil => cases last
          | cons second inner =>
              -- the character behind the next one is the literal's own, so that no text makes it another LF
              refine ⟨by simp, by rw [List.getLast?_append, last, Option.some_or], fun y => ?_⟩
              simp only [List.take_succ_cons, List.take_zero, List.cons_append, List.nil_append] at isPair more ⊢
              rw [literal_escape isPair]
              simp [more]
  | case4 rest isQuote =>
      rw [literal_end isQuote] at found
      cases found
      exact ⟨rfl, rfl, fun y => literal_end isQuote⟩
  | case5 c rest isEscape isEnd isBreak =>
      rw [Reader.literal, if_neg isEscape, if_neg isEnd, if_pos isBreak] at found
      cases found
  | case6 c rest isEscape isEnd isBreak ih =>
      rw [literal_char isEscape isEnd isBreak] at found
      obtain ⟨⟨inner, after⟩, isInner, same⟩ := Option.map_eq_some_iff.mp found
      obtain ⟨split, last, more⟩ := ih isInner
      cases same
      refine ⟨congrArg (c :: ·) split, ?_, fun y => ?_⟩
      · rw [← List.singleton_append, List.getLast?_append, last, Option.some_or]
      · rw [List.cons_append, literal_char isEscape isEnd isBreak, more]
        rfl

/-- A literal begins and ends with its quote. -/
theorem string_quotes {s l u : List Char} (found : r.string s = some (l, u)) :
    ∃ q inner, isQuote q ∧ l = q :: inner ∧ l.getLast? = some q := by
  cases s with
  | nil => cases found
  | cons q rest =>
      simp only [Reader.string] at found
      split at found
      case isFalse => cases found
      case isTrue quoted =>
        obtain ⟨⟨inner, after⟩, isInner, same⟩ := Option.map_eq_some_iff.mp found
        obtain ⟨-, last, -⟩ := literal_split isInner
        cases same
        exact ⟨q, inner, quoted, rfl, by rw [← List.singleton_append, List.getLast?_append, last, Option.some_or]⟩

theorem string_split {s l u : List Char} (found : r.string s = some (l, u)) :
    s = l ++ u ∧ ∀ y, r.string (l ++ y) = some (l, y) := by
  cases s with
  | nil => cases found
  | cons q rest =>
      simp only [Reader.string] at found
      split at found
      case isFalse => cases found
      case isTrue quoted =>
        obtain ⟨⟨inner, after⟩, isInner, same⟩ := Option.map_eq_some_iff.mp found
        obtain ⟨split, -, more⟩ := literal_split isInner
        cases same
        exact ⟨congrArg (q :: ·) split, fun y => by simp [Reader.string, quoted, more]⟩

theorem string_length {s l u : List Char} (found : r.string s = some (l, u)) : u.length < s.length := by
  obtain ⟨q, inner, -, isInner, -⟩ := string_quotes found
  rw [(string_split found).1, isInner]
  simp

/-- A literal is no semicolon. -/
theorem string_head {s l u : List Char} (found : r.string s = some (l, u)) : s.head? ≠ some ';' := by
  obtain ⟨q, inner, quoted, isInner, -⟩ := string_quotes found
  rw [(string_split found).1, isInner]
  rintro ⟨⟩
  cases quoted

theorem directive_iff {s : List Char} {found : List Char × List Char} :
    r.directive s = some found ↔ r.string s = some found ∧ r.closes found.2 = true := Option.filter_eq_some_iff

end Literals

theorem closes_iff {r : Reader} {s : List Char} : r.closes s = true ↔
    (r.skip s).1 = [] ∨ (r.skip s).1.head? = some ';' ∨ (r.skip s).1.head? = some '}' ∨
      (r.skip s).2 = true ∧ r.continues (r.skip s).1 = false := by
  simp [Reader.closes, List.isEmpty_iff, or_assoc]

theorem statementEnd_length (r : Reader) (s : List Char) : (r.statementEnd s).length ≤ s.length := by
  unfold Reader.statementEnd
  split
  · exact Nat.le_trans (by simp) (skip_length r s)
  · exact Nat.le_refl _

theorem directive_length {r : Reader} {s : List Char} {found : List Char × List Char} (isDirective : r.directive s = some found) :
    found.2.length < s.length := string_length (directive_iff.mp isDirective).1

/-- The directives that the text begins with. -/
def Reader.directives (r : Reader) (s : List Char) : List (List Char) :=
  match _found : r.directive (r.skip s).1 with
  | none => []
  | some found => found.1 :: r.directives (r.statementEnd found.2)
termination_by s.length
decreasing_by
  have shorter := directive_length ‹_›
  have skipped := skip_length r s
  have ended := statementEnd_length r found.2
  omega

theorem directives_none {r : Reader} {s : List Char} (isNone : r.directive (r.skip s).1 = none) : r.directives s = [] := by
  rw [Reader.directives]
  split
  · rfl
  · simp_all

theorem directives_some {r : Reader} {s l u : List Char} (isSome : r.directive (r.skip s).1 = some (l, u)) :
    r.directives s = l :: r.directives (r.statementEnd u) := by
  rw [Reader.directives]
  split
  case h_1 isNone => rw [isSome] at isNone; cases isNone
  case h_2 found same => rw [isSome] at same; cases same; rfl

/-- The directives to come, behind a literal that may still have its semicolon or at the start of a statement. -/
def Reader.directivesFrom (r : Reader) (ended : Bool) (s : List Char) : List (List Char) :=
  r.directives (if ended then s else r.statementEnd s)

end Readers

/-! Languages. -/
section Languages

structure Language extends Reader where
  closed : unclosed = false
  ends (c : Char) : endsLine c = newline c
  apart (c : Char) : space c = true → newline c = false
  token (c : Char) : c ∈ ['/', '*', ';', '\'', '"'] → space c = false ∧ newline c = false
  /-- A literal does not go on with an expression. -/
  fresh (q : Char) (rest : List Char) : isQuote q → continues (q :: rest) = false

/-- White space and whole comments, a `//` comment with the newline that ends it. -/
inductive Trivia (r : Reader) : List Char → Prop where
  | nil : Trivia r []
  | white {c : Char} {e : List Char} (isWhite : r.space c = true ∨ r.newline c = true) (more : Trivia r e) : Trivia r (c :: e)
  | line {body e : List Char} {c : Char} (inside : ∀ c ∈ body, r.endsLine c = false) (ends : r.endsLine c = true)
      (more : Trivia r e) : Trivia r ('/' :: '/' :: (body ++ c :: e))
  | block {body e : List Char} (inside : blockEnd (body ++ ['*', '/']) = some (body, [])) (more : Trivia r e) :
      Trivia r ('/' :: '*' :: (body ++ '*' :: '/' :: e))

variable {L : Language}

theorem Trivia.append {r : Reader} {e f : List Char} (first : Trivia r e) (last : Trivia r f) : Trivia r (e ++ f) := by
  induction first with
  | nil => exact last
  | white isWhite _ ih => exact .white isWhite ih
  | line inside ends _ ih => simpa using Trivia.line inside ends ih
  | block inside _ ih => simpa using Trivia.block inside ih

theorem Trivia.skip {e : List Char} (trivia : Trivia L.toReader e) (y : List Char) :
    L.skip (e ++ y) = ((L.skip y).1, e.any L.newline || (L.skip y).2) := by
  have slash := L.token '/' (by simp)
  have star := L.token '*' (by simp)
  induction trivia with
  | nil => rfl
  | @white c e isWhite more ih =>
      by_cases isSpace : L.space c
      · rw [List.cons_append, skip_space isSpace, ih, List.any_cons, L.apart c isSpace, Bool.false_or]
      · have isNewline := isWhite.resolve_left isSpace
        rw [List.cons_append, skip_newline isSpace isNewline, ih, List.any_cons, isNewline, Bool.true_or, Bool.true_or]
  | @line body e c inside ends more ih =>
      have noSlash : L.endsLine '/' = false := (L.ends '/').trans slash.2
      have isSpace : ¬L.space c := fun isSpace => by
        have apart := L.apart c isSpace
        rw [← L.ends, ends] at apart
        cases apart
      have isNewline : L.newline c := (L.ends c).symm.trans ends
      have stop : (('/' :: (body ++ c :: e)) ++ y).dropWhile (fun c => !L.endsLine c) = c :: (e ++ y) := by
        rw [List.cons_append, List.dropWhile_cons_of_pos (by simp [noSlash]), List.append_assoc,
          List.dropWhile_append_of_pos (by simpa using inside), List.cons_append, List.dropWhile_cons_of_neg (by simp [ends])]
      rw [List.cons_append, skip_line (by simp [slash]) (by simp [slash]) (by simp), stop, skip_newline isSpace isNewline, ih]
      simp [isNewline]
  | @block body e inside more ih =>
      have found : blockEnd ('*' :: (body ++ '*' :: '/' :: e) ++ y).tail = some (body, e ++ y) := by
        simpa using block_end_append inside (e ++ y)
      rw [List.cons_append, skip_block (by simp [slash]) (by simp [slash]) (by simp) (by simp) found, ih]
      simp [slash, star, Bool.or_assoc]

/-- Text that is not white space and starts no comment. -/
def Token (L : Language) (s : List Char) : Prop := L.skip s = (s, false)

theorem quote_not_white {q : Char} (quoted : isQuote q) : L.space q = false ∧ L.newline q = false := by
  have isQuoted : q = '\'' ∨ q = '"' := by simpa [isQuote] using quoted
  exact L.token q (by rcases isQuoted with rfl | rfl <;> simp)

theorem quote_token {q : Char} (quoted : isQuote q) (rest : List Char) : Token L (q :: rest) := by
  have notWhite := quote_not_white (L := L) quoted
  have notSlash : q ≠ '/' := by
    rintro rfl
    cases quoted
  exact skip_token (by simp [notWhite]) (by simp [notWhite]) (by simp [notSlash]) (by simp [notSlash])

theorem semicolon_token (rest : List Char) : Token L (';' :: rest) := by
  have notWhite := L.token ';' (by simp)
  exact skip_token (by simp [notWhite]) (by simp [notWhite]) (by simp) (by simp)

theorem string_token {s l u : List Char} (found : L.string s = some (l, u)) : Token L s := by
  obtain ⟨q, inner, quoted, isInner, -⟩ := string_quotes found
  rw [(string_split found).1, isInner]
  exact quote_token quoted _

theorem statementEnd_semicolon {e : List Char} (trivia : Trivia L.toReader e) (rest : List Char) :
    L.statementEnd (e ++ ';' :: rest) = rest := by
  have skipped : (L.skip (e ++ ';' :: rest)).1 = ';' :: rest := by
    rw [trivia.skip, semicolon_token]
  rw [Reader.statementEnd, skipped]
  rfl

theorem statementEnd_string {e s l u : List Char} (trivia : Trivia L.toReader e) (found : L.string s = some (l, u)) :
    L.statementEnd (e ++ s) = e ++ s := by
  have skipped : (L.skip (e ++ s)).1 = s := by
    rw [trivia.skip, string_token found]
  refine if_neg ?_
  rw [skipped]
  exact string_head found

/-- The text `x` in front of `rest` holds just the directives, with what belongs to their statements:
behind it one is outside every token and comment, and in front of the first statement that is no
directive. At its start a statement has ended, or it may still have its semicolon. -/
inductive Before (L : Language) : Bool → List Char → List (List Char) → List Char → Prop where
  | gap {ended : Bool} {e rest : List Char} (trivia : Trivia L.toReader e) : Before L ended e [] rest
  | semicolon {e x rest : List Char} {ds : List (List Char)} (trivia : Trivia L.toReader e)
      (behind : Before L true x ds rest) : Before L false (e ++ ';' :: x) ds rest
  | directive {ended : Bool} {e l x rest : List Char} {ds : List (List Char)} (trivia : Trivia L.toReader e)
      (isDirective : L.directive (l ++ (x ++ rest)) = some (l, x ++ rest)) (behind : Before L false x ds rest) :
      Before L ended (e ++ (l ++ x)) (l :: ds) rest

theorem directivesFrom_semicolon {e : List Char} (trivia : Trivia L.toReader e) (rest : List Char) :
    L.directivesFrom false (e ++ ';' :: rest) = L.directivesFrom true rest := by
  rw [Reader.directivesFrom, if_neg (by simp), statementEnd_semicolon trivia]
  rfl

theorem directivesFrom_directive {ended : Bool} {e s l u : List Char} (trivia : Trivia L.toReader e)
    (isDirective : L.directive s = some (l, u)) :
    L.directivesFrom ended (e ++ s) = l :: L.directivesFrom false u := by
  have isString := (directive_iff.mp isDirective).1
  have start : (if ended then e ++ s else L.statementEnd (e ++ s)) = e ++ s := by
    rw [statementEnd_string trivia isString, ite_self]
  have skipped : (L.skip (e ++ s)).1 = s := by
    rw [trivia.skip, string_token isString]
  rw [Reader.directivesFrom, start, directives_some (by rw [skipped]; exact isDirective)]
  rfl

/-- The directives passed are the first of the text. -/
theorem Before.directives {ended : Bool} {x rest : List Char} {ds : List (List Char)} (before : Before L ended x ds rest) :
    ∃ more, L.directivesFrom ended (x ++ rest) = ds ++ more := by
  induction before with
  | gap trivia => exact ⟨_, rfl⟩
  | @semicolon e x rest ds trivia behind ih =>
      obtain ⟨more, same⟩ := ih
      exact ⟨more, by rw [List.append_assoc, List.cons_append, directivesFrom_semicolon trivia, same]⟩
  | @directive ended e l x rest ds trivia isDirective behind ih =>
      obtain ⟨more, same⟩ := ih
      refine ⟨more, ?_⟩
      rw [List.append_assoc, List.append_assoc, directivesFrom_directive trivia isDirective, same, List.cons_append]

theorem directivesFrom_none {ended : Bool} {s t : List Char} (skipped : (L.skip s).1 = t) (other : t.head? ≠ some ';')
    (isNone : L.directive t = none) : L.directivesFrom ended s = [] := by
  have start : (if ended then s else L.statementEnd s) = s := by
    have noEnd : L.statementEnd s = s := if_neg (by rwa [skipped])
    rw [noEnd, ite_self]
  rw [Reader.directivesFrom, start]
  exact directives_none (by rwa [skipped])

/-- With another text behind it, the directives passed are still the first ones as far as they are statements there. -/
theorem Before.directives_insert {ended : Bool} {x rest a : List Char} {ds : List (List Char)}
    (before : Before L ended x ds rest)
    (quiet : ∀ ended e, Trivia L.toReader e → L.directivesFrom ended (e ++ a) = []) :
    L.directivesFrom ended (x ++ a) = ds ∨ (L.directivesFrom ended (x ++ a)).length < ds.length := by
  induction before with
  | gap trivia => exact Or.inl (quiet _ _ trivia)
  | @semicolon e x rest ds trivia behind ih =>
      rw [List.append_assoc, List.cons_append, directivesFrom_semicolon trivia]
      exact ih
  | @directive ended e l x rest ds trivia isDirective behind ih =>
      have isString := (string_split (directive_iff.mp isDirective).1).2 (x ++ a)
      rw [List.append_assoc, List.append_assoc]
      -- a literal that is no statement in front of the other text is where its prologue ends
      by_cases closes : L.closes (x ++ a)
      · rw [directivesFrom_directive trivia (directive_iff.mpr ⟨isString, closes⟩)]
        rcases ih with same | fewer
        · exact Or.inl (by rw [same])
        · exact Or.inr (by simpa using fewer)
      · have notDirective : L.directive (l ++ (x ++ a)) = none := by
          rw [Reader.directive, isString]
          simpa [Option.filter] using closes
        have skipped : (L.skip (e ++ (l ++ (x ++ a)))).1 = l ++ (x ++ a) := by
          rw [trivia.skip, string_token isString]
        rw [directivesFrom_none skipped (string_head isString) notDirective]
        exact Or.inr (by simp)

/-- A comment that has no end. -/
inductive Open (L : Language) : List Char → Prop where
  | line {body : List Char} (inside : ∀ c ∈ body, L.endsLine c = false) : Open L ('/' :: '/' :: body)
  | block {body : List Char} (inside : blockEnd body = none) : Open L ('/' :: '*' :: body)

/-- What the reader takes for white space or for a newline is so in the language. -/
structure Narrower (r : Reader) (L : Language) : Prop where
  white (c : Char) : r.space c = true ∨ r.newline c = true → L.space c = true ∨ L.newline c = true
  newline (c : Char) : r.newline c = true → L.newline c = true
  ends (c : Char) : r.endsLine c = true → r.newline c = true

/-- Behind a `//` comment of the language, the reader goes on over no more than white space. -/
def LinesEnd (r : Reader) (L : Language) (s : List Char) : Prop :=
  ∀ before rest, s = before ++ '/' :: '/' :: rest → ∃ w, (∀ c ∈ w, L.space c = true ∨ L.newline c = true) ∧
    (rest.dropWhile fun c => !L.endsLine c) = w ++ rest.dropWhile fun c => !r.endsLine c

theorem LinesEnd.behind {r : Reader} {s : List Char} (before : List Char) (lines : LinesEnd r L (before ++ s)) : LinesEnd r L s := by
  rintro start rest rfl
  exact lines (before ++ start) rest (by simp)

theorem Trivia.of_white {w : List Char} (white : ∀ c ∈ w, L.space c = true ∨ L.newline c = true) : Trivia L.toReader w := by
  induction w with
  | nil => exact .nil
  | cons c w ih => exact .white (white c (by simp)) (ih fun c mem => white c (by simp [mem]))

/-- A newline that trivia begins with is one of its characters. -/
theorem Trivia.behind_newline {c : Char} {e : List Char} (trivia : Trivia L.toReader (c :: e)) (isNewline : L.newline c = true) :
    Trivia L.toReader e := by
  have slash := L.token '/' (by simp)
  cases trivia with
  | white _ more => exact more
  | line inside ends more => rw [slash.2] at isNewline; cases isNewline
  | block inside more => rw [slash.2] at isNewline; cases isNewline

theorem Trivia.comment {rest f p : List Char} (tail : (rest.dropWhile fun c => !L.endsLine c) = f ++ p)
    (trivia : Trivia L.toReader f) (stop : f = [] → p = []) :
    (∃ e, '/' :: '/' :: rest = e ++ p ∧ Trivia L.toReader e) ∨ p = [] ∧ Open L ('/' :: '/' :: rest) := by
  have whole := List.takeWhile_append_dropWhile (p := fun c => !L.endsLine c) (l := rest)
  have inside : ∀ c ∈ rest.takeWhile (fun c => !L.endsLine c), L.endsLine c = false := fun c mem => by
    simpa using List.all_eq_true.mp (List.all_takeWhile (l := rest)) c mem
  cases f with
  | nil =>
      rw [stop rfl] at tail
      rw [tail, List.append_nil, List.append_nil] at whole
      rw [whole] at inside
      exact Or.inr ⟨stop rfl, .line inside⟩
  | cons c f =>
      have ends : L.endsLine c = true := by
        have first := List.head?_dropWhile_not (fun c => !L.endsLine c) rest
        rw [tail] at first
        simpa using first
      have more := trivia.behind_newline ((L.ends c).symm.trans ends)
      refine Or.inl ⟨_, ?_, .line inside ends more⟩
      nth_rewrite 1 [← whole]
      rw [tail]
      simp

/-- A narrower reader skips what is white space and whole comments in the language, or a comment that has no end. -/
theorem skip_narrower {r : Reader} (narrower : Narrower r L) (s : List Char) (lines : LinesEnd r L s) :
    ∃ e p, s = e ++ p ∧ Trivia L.toReader e ∧ ((r.skip s).1 = p ∨ (r.skip s).1 = [] ∧ Open L p) := by
  have slash := L.token '/' (by simp)
  induction s using Reader.skip.induct r with
  | case1 => exact ⟨[], [], rfl, .nil, Or.inl (by rw [skip_nil])⟩
  | case2 c rest isSpace ih =>
      obtain ⟨e, p, rfl, trivia, found⟩ := ih (LinesEnd.behind [c] lines)
      rw [skip_space isSpace]
      exact ⟨c :: e, p, rfl, .white (narrower.white c (Or.inl isSpace)) trivia, found⟩
  | case3 c rest isSpace isNewline ih =>
      obtain ⟨e, p, rfl, trivia, found⟩ := ih (LinesEnd.behind [c] lines)
      rw [skip_newline isSpace isNewline]
      exact ⟨c :: e, p, rfl, .white (narrower.white c (Or.inr isNewline)) trivia, found⟩
  | case4 c rest isSpace isNewline isLine ih =>
      -- the reader's comment may be longer, by white space; the language's ends with its own newline
      obtain ⟨rfl, isSlash⟩ := isLine
      obtain ⟨rest, rfl⟩ := List.head?_eq_some_iff.mp isSlash
      have goesOn : ¬r.endsLine '/' := fun ends => isNewline (narrower.ends '/' ends)
      have stop : (('/' :: rest).dropWhile fun c => !r.endsLine c) = rest.dropWhile fun c => !r.endsLine c :=
        List.dropWhile_cons_of_pos (by simp [goesOn])
      obtain ⟨w, isWhite, same⟩ := lines [] rest rfl
      have whole := List.takeWhile_append_dropWhile (p := fun c => !r.endsLine c) (l := rest)
      rw [stop] at ih
      obtain ⟨e, p, split, trivia, found⟩ := ih (LinesEnd.behind ('/' :: '/' :: rest.takeWhile fun c => !r.endsLine c)
        (by rwa [List.cons_append, List.cons_append, whole]))
      rw [skip_line isSpace isNewline ⟨rfl, isSlash⟩, stop]
      have behind : w ++ e = [] → p = [] := fun empty => by
        obtain ⟨-, rfl⟩ := List.append_eq_nil_iff.mp empty
        cases p with
        | nil => rfl
        | cons c p =>
            have first := List.head?_dropWhile_not (fun c => !r.endsLine c) rest
            rw [split] at first
            have ends := narrower.ends c (by simpa using first)
            rcases found with same | ⟨-, isOpen⟩
            · exact absurd ends (skip_stops r _ (by rw [same]; rfl)).2
            · have isNewline := narrower.newline c ends
              cases isOpen <;> rw [slash.2] at isNewline <;> cases isNewline
      rcases Trivia.comment (by rw [same, split, List.append_assoc]) ((Trivia.of_white isWhite).append trivia) behind with
        ⟨e, whole, trivia⟩ | ⟨rfl, isOpen⟩
      · exact ⟨e, p, whole, trivia, found⟩
      · rcases found with skipped | ⟨-, isOpen⟩
        · exact ⟨[], _, rfl, .nil, Or.inr ⟨skipped, isOpen⟩⟩
        · cases isOpen
  | case5 c rest isSpace isNewline isLine isBlock body after found ih =>
      obtain ⟨rfl, isStar⟩ := isBlock
      obtain ⟨more, rfl⟩ := List.head?_eq_some_iff.mp isStar
      have split := block_end_split found
      rw [List.tail_cons] at split
      subst split
      obtain ⟨e, p, rfl, trivia, stop⟩ := ih (LinesEnd.behind ('/' :: '*' :: (body ++ ['*', '/'])) (by simpa using lines))
      rw [skip_block isSpace isNewline isLine ⟨rfl, isStar⟩ found]
      exact ⟨_, p, by simp, .block (block_end_body found) trivia, stop⟩
  | case6 c rest isSpace isNewline isLine isBlock found isUnclosed =>
      obtain ⟨rfl, isStar⟩ := isBlock
      obtain ⟨more, rfl⟩ := List.head?_eq_some_iff.mp isStar
      rw [skip_unclosed isSpace isNewline isLine ⟨rfl, isStar⟩ found, if_pos isUnclosed]
      exact ⟨[], _, rfl, .nil, Or.inr ⟨rfl, .block found⟩⟩
  | case7 c rest isSpace isNewline isLine isBlock found isUnclosed =>
      rw [skip_unclosed isSpace isNewline isLine isBlock found, if_neg isUnclosed]
      exact ⟨[], _, rfl, .nil, Or.inl rfl⟩
  | case8 c rest isSpace isNewline isLine isBlock =>
      rw [skip_token isSpace isNewline isLine isBlock]
      exact ⟨[], _, rfl, .nil, Or.inl rfl⟩

theorem Trivia.skip_nil {e : List Char} (trivia : Trivia L.toReader e) : (L.skip e).1 = [] := by
  have skipped := trivia.skip []
  rw [List.append_nil, DirectivePrologue.skip_nil] at skipped
  rw [skipped]

theorem skip_open_block {body : List Char} (inside : blockEnd body = none) :
    (L.skip ('/' :: '*' :: body)).1 = '/' :: '*' :: body := by
  have slash := L.token '/' (by simp)
  have noEnd : blockEnd ('*' :: body).tail = none := inside
  rw [skip_unclosed (by simp [slash]) (by simp [slash]) (by simp) (by simp) noEnd, if_neg (by simp [L.closed])]

theorem Open.skip {p : List Char} (isOpen : Open L p) : (L.skip p).1 = [] ∨ (L.skip p).1 = p := by
  have slash := L.token '/' (by simp)
  cases isOpen with
  | @line body inside =>
      have noSlash := (L.ends '/').trans slash.2
      have empty : (('/' :: body).dropWhile fun c => !L.endsLine c) = [] := by
        rw [List.dropWhile_eq_nil_iff]
        intro c mem
        rcases List.mem_cons.mp mem with rfl | mem
        · simp [noSlash]
        · simp [inside c mem]
      rw [skip_line (by simp [slash]) (by simp [slash]) (by simp), empty, DirectivePrologue.skip_nil]
      exact Or.inl rfl
  | block inside => exact Or.inr (skip_open_block inside)

/-- No statement begins in a comment that has no end. -/
theorem Open.no_statement {e p : List Char} (isOpen : Open L p) (trivia : Trivia L.toReader e) :
    (L.skip (e ++ p)).1.head? ≠ some ';' ∧ L.directive (L.skip (e ++ p)).1 = none := by
  have notQuote : L.directive p = none := by
    cases isOpen <;> rfl
  have notSemicolon : p.head? ≠ some ';' := by
    cases isOpen <;> simp
  rw [trivia.skip]
  rcases isOpen.skip with stop | stop <;> rw [stop]
  · exact ⟨by simp, rfl⟩
  · exact ⟨notSemicolon, notQuote⟩

/-- What ends inside a comment is not trivia. -/
theorem Open.not_trivia {e p : List Char} (isOpen : Open L p) (trivia : Trivia L.toReader e) : ¬Trivia L.toReader (e ++ p) := by
  intro whole
  cases isOpen with
  | @line body inside =>
      -- a semicolon behind it would still be part of the comment
      have stillOpen : Open L ('/' :: '/' :: (body ++ [';'])) := .line fun c mem => by
        rcases List.mem_append.mp mem with mem | mem
        · exact inside c mem
        · rw [List.mem_singleton.mp mem, L.ends, (L.token ';' (by simp)).2]
      have behind := whole.skip [';']
      rw [semicolon_token] at behind
      have within := (stillOpen.no_statement trivia).1
      rw [← List.cons_append, ← List.cons_append, ← List.append_assoc, behind] at within
      exact within rfl
  | @block body inside =>
      -- an unclosed block comment is left standing as a token
      have behind := whole.skip_nil
      rw [trivia.skip, skip_open_block inside] at behind
      cases behind

/-- A text that begins with trivia and a token is not itself trivia. -/
theorem Trivia.no_token {e t x rest : List Char} (trivia : Trivia L.toReader e) (token : Token L t)
    (same : x ++ rest = e ++ t) (behind : rest.length < t.length) : ¬Trivia L.toReader x := by
  intro whole
  have skipped : t = (L.skip rest).1 := by
    have skipped := whole.skip rest
    rw [same, trivia.skip, token] at skipped
    exact congrArg Prod.fst skipped
  have shorter := skip_length L.toReader rest
  rw [← skipped] at shorter
  omega

/-! What the text passed begins with, when it is known what the whole text begins with. -/
section Passing

variable {ended : Bool} {e x rest : List Char} {ds : List (List Char)}

theorem same_token {e t e' t' : List Char} (trivia : Trivia L.toReader e) (token : Token L t) (trivia' : Trivia L.toReader e')
    (token' : Token L t') (same : e ++ t = e' ++ t') : t = t' := by
  have skipped := trivia.skip t
  rw [same, trivia'.skip, token, token'] at skipped
  exact (congrArg Prod.fst skipped).symm

theorem Before.of_trivia (before : Before L ended x ds rest) (trivia : Trivia L.toReader x) : ds = [] := by
  cases before with
  | gap => rfl
  | @semicolon e x _ _ before behind =>
      exact absurd trivia (before.no_token (semicolon_token x) (List.append_nil _) (by simp))
  | @directive _ e l x _ ds before isDirective behind =>
      have isString := (directive_iff.mp isDirective).1
      obtain ⟨q, inner, -, rfl, -⟩ := string_quotes isString
      exact absurd trivia (before.no_token (string_token ((string_split isString).2 x)) (List.append_nil _) (by simp))

theorem Before.behind_quote {q : Char} {t : List Char} (before : Before L ended x ds rest) (trivia : Trivia L.toReader e)
    (quoted : isQuote q) (same : x ++ rest = e ++ q :: t) (behind : rest.length ≤ t.length) :
    ∃ l x' ds', ds = l :: ds' ∧ L.directive (q :: t) = some (l, x' ++ rest) ∧ Before L false x' ds' rest := by
  have token := quote_token (L := L) quoted t
  cases before with
  | gap whole => exact absurd whole (trivia.no_token token same (by simp; omega))
  | @semicolon e' x' _ _ before more =>
      rw [List.append_assoc, List.cons_append] at same
      have isSemicolon := same_token before (semicolon_token _) trivia token same
      cases isSemicolon
      cases quoted
  | @directive _ e' l' x' _ ds' before isDirective more =>
      rw [List.append_assoc, List.append_assoc] at same
      have isOther := same_token before (string_token (directive_iff.mp isDirective).1) trivia token same
      rw [isOther] at isDirective
      exact ⟨l', x', ds', rfl, isDirective, more⟩

theorem Before.behind_semicolon {z : List Char} (before : Before L ended x ds rest) (trivia : Trivia L.toReader e)
    (same : x ++ rest = e ++ ';' :: z) (behind : rest.length ≤ z.length) :
    ∃ x', z = x' ++ rest ∧ Before L true x' ds rest := by
  have token := semicolon_token (L := L) z
  cases before with
  | gap whole => exact absurd whole (trivia.no_token token same (by simp; omega))
  | @semicolon e' x' _ _ before more =>
      rw [List.append_assoc, List.cons_append] at same
      have isSemicolon := same_token before (semicolon_token _) trivia token same
      cases isSemicolon
      exact ⟨x', rfl, more⟩
  | @directive _ e' l' x' _ ds' before isDirective more =>
      rw [List.append_assoc, List.append_assoc] at same
      have isString := (directive_iff.mp isDirective).1
      have isOther := same_token before (string_token isString) trivia token same
      rw [isOther] at isString
      cases isString

/-- Without a directive, at most the semicolon of the statement before has been passed. -/
theorem Before.without_directive (before : Before L ended x [] rest) :
    Trivia L.toReader x ∨ ∃ e z, x = e ++ ';' :: z ∧ Trivia L.toReader e := by
  cases before with
  | gap trivia => exact Or.inl trivia
  | semicolon trivia => exact Or.inr ⟨_, _, rfl, trivia⟩

theorem Before.after_trivia (before : Before L ended x ds rest) (trivia : Trivia L.toReader e) :
    Before L ended (e ++ x) ds rest := by
  cases before with
  | gap more => exact .gap (trivia.append more)
  | semicolon more behind =>
      rw [← List.append_assoc]
      exact .semicolon (trivia.append more) behind
  | directive more isDirective behind =>
      rw [← List.append_assoc]
      exact .directive (trivia.append more) isDirective behind

theorem Before.behind_newline {c : Char} (before : Before L ended (c :: x) ds rest) (isNewline : L.newline c = true) :
    Before L ended x ds rest := by
  generalize front : c :: x = y at before
  cases before with
  | gap more =>
      subst front
      exact .gap (more.behind_newline isNewline)
  | @semicolon e z _ _ more behind =>
      cases e with
      | nil =>
          cases front
          rw [(L.token ';' (by simp)).2] at isNewline
          cases isNewline
      | cons other e =>
          cases front
          exact .semicolon (more.behind_newline isNewline) behind
  | @directive _ e l z _ _ more isDirective behind =>
      cases e with
      | nil =>
          obtain ⟨q, inner, quoted, rfl, -⟩ := string_quotes (directive_iff.mp isDirective).1
          cases front
          rw [(quote_not_white quoted).2] at isNewline
          cases isNewline
      | cons other e =>
          cases front
          exact .directive (more.behind_newline isNewline) isDirective behind

theorem Before.behind_newlines (before : Before L ended (e ++ x) ds rest) (newlines : ∀ c ∈ e, L.newline c = true) :
    Before L ended x ds rest := by
  induction e with
  | nil => exact before
  | cons c e ih => exact ih (before.behind_newline (newlines c (by simp))) fun c mem => newlines c (by simp [mem])

theorem directives_trivia (trivia : Trivia L.toReader e) (s : List Char) : L.directives (e ++ s) = L.directives s := by
  have skipped : (L.skip (e ++ s)).1 = (L.skip s).1 := by
    rw [trivia.skip]
  cases found : L.directive (L.skip s).1 with
  | none => rw [directives_none found, directives_none (by rw [skipped, found])]
  | some found' => rw [directives_some found, directives_some (by rw [skipped, found])]

end Passing

end Languages

end Countinghouse.DirectivePrologue
