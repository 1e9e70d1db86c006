import Mathlib
import Countinghouse.DirectivePrologue

/-!
ECMAScript as the language of a program text: its white space and line terminators, the texts that go
on with an expression behind a line terminator, where the code of a file begins, and line numbers. The
HTML-like comments of scripts are left out; the identifier characters of Unicode are a parameter.
-/

namespace Countinghouse.EcmascriptText

open DirectivePrologue

/-! The language. -/
section Language

def whiteSpace (c : Char) : Bool :=
  c ∈ ['\t', '\u000B', '\u000C', ' ', '\u00A0', '\uFEFF', '\u1680', '\u2000', '\u2001', '\u2002', '\u2003', '\u2004', '\u2005',
    '\u2006', '\u2007', '\u2008', '\u2009', '\u200A', '\u202F', '\u205F', '\u3000']

def lineTerminator (c : Char) : Bool := c ∈ ['\n', '\r', '\u2028', '\u2029']

/-- The text begins with the word, and no character that would make it a longer one comes next. -/
def beginsWord (longer : Char → Bool) (word s : List Char) : Bool :=
  word.isPrefixOf s && !(s.drop word.length).head?.any longer

/-- Behind a literal and a line terminator, the grammar lets the text go on with the expression. -/
def goesOn (identifierPart : Char → Bool) (s : List Char) : Bool :=
  match s with
  | [] => false
  -- not a number, and not the three dots of a spread
  | '.' :: rest => !rest.head?.any Char.isDigit && rest.take 2 != ['.', '.']
  -- `++` and `--` take an operand of the next line
  | '+' :: rest => rest.head? != some '+'
  | '-' :: rest => rest.head? != some '-'
  | '=' :: rest => rest.head? != some '>'
  | '!' :: rest => rest.head? == some '='
  | c :: _ =>
      c ∈ ['(', '[', '`', ',', '*', '/', '%', '<', '>', '&', '|', '^', '?'] ||
        beginsWord (fun c => identifierPart c || c == '\\') ['i', 'n', 's', 't', 'a', 'n', 'c', 'e', 'o', 'f'] s ||
        beginsWord (fun c => identifierPart c || c == '\\') ['i', 'n'] s

def ecmascript (identifierPart : Char → Bool) : Language where
  space := whiteSpace
  newline := lineTerminator
  endsLine := lineTerminator
  unclosed := false
  breaks c := c == '\n' || c == '\r'
  pairs := true
  continues := goesOn identifierPart
  closed := rfl
  ends _ := rfl
  apart c isSpace := by
    simp only [whiteSpace, List.mem_cons, List.not_mem_nil, or_false, decide_eq_true_eq] at isSpace
    rcases isSpace with rfl | rfl | rfl | rfl | rfl | rfl | rfl | rfl | rfl | rfl | rfl | rfl | rfl | rfl | rfl | rfl | rfl | rfl |
      rfl | rfl | rfl <;> decide
  token c mem := by
    simp only [List.mem_cons, List.not_mem_nil, or_false] at mem
    rcases mem with rfl | rfl | rfl | rfl | rfl <;> decide
  fresh q rest quoted := by
    have isQuoted : q = '\'' ∨ q = '"' := by simpa [isQuote] using quoted
    rcases isQuoted with rfl | rfl <;> simp [goesOn, beginsWord]

end Language

/-! The code of a file. -/
section Code

def useStrict (quote : Char) : List Char := [quote, 'u', 's', 'e', ' ', 's', 't', 'r', 'i', 'c', 't', quote]

/-- The text behind a byte order mark. -/
def unmarked (source : List Char) : List Char := if source.head? = some '\uFEFF' then source.tail else source

/-- The text of the file's code: not a byte order mark, and not a line that begins with `#!`. -/
def codeOf (source : List Char) : List Char :=
  if (unmarked source).take 2 = ['#', '!'] then (unmarked source).dropWhile fun c => !lineTerminator c else unmarked source

theorem unmarked_split (source : List Char) : ∃ mark, source = mark ++ unmarked source ∧
    ∀ t, t.head? ≠ some '\uFEFF' ∨ t.head? = (unmarked source).head? → unmarked (mark ++ t) = t := by
  by_cases isMark : source.head? = some '\uFEFF'
  · obtain ⟨text, rfl⟩ := List.head?_eq_some_iff.mp isMark
    exact ⟨['\uFEFF'], rfl, fun t _ => rfl⟩
  · have noMark : unmarked source = source := if_neg isMark
    rw [noMark]
    refine ⟨[], rfl, fun t first => if_neg ?_⟩
    rcases first with other | same
    · exact other
    · rw [List.nil_append, same]
      exact isMark

/-- The code stays behind its header: if it begins as before, or if there is no `#!` line, with no
mark and no `#`. -/
theorem codeOf_split (source : List Char) : ∃ header, source = header ++ codeOf source ∧
    ∀ t, t.head? ≠ some '#' → t.head? = (codeOf source).head? ∨
      t.head? ≠ some '\uFEFF' ∧ (unmarked source).take 2 ≠ ['#', '!'] → codeOf (header ++ t) = t := by
  obtain ⟨mark, same, again⟩ := unmarked_split source
  by_cases isHashbang : (unmarked source).take 2 = ['#', '!']
  · obtain ⟨rest, isRest⟩ : ∃ rest, unmarked source = '#' :: '!' :: rest := by
      refine ⟨(unmarked source).drop 2, ?_⟩
      nth_rewrite 1 [← List.take_append_drop 2 (unmarked source)]
      rw [isHashbang]
      rfl
    have code : codeOf source = rest.dropWhile fun c => !lineTerminator c := by
      rw [codeOf, if_pos isHashbang, isRest]
      rfl
    have line := List.takeWhile_append_dropWhile (p := fun c => !lineTerminator c) (l := rest)
    rw [code]
    refine ⟨mark ++ ('#' :: '!' :: rest.takeWhile fun c => !lineTerminator c), ?_, fun t _ first => ?_⟩
    · rw [List.append_assoc, List.cons_append, List.cons_append, line, ← isRest]
      exact same
    · -- the line ends where it did, since the text behind it begins with the same terminator
      have start := first.resolve_right fun other => other.2 isHashbang
      have behind := again ('#' :: '!' :: ((rest.takeWhile fun c => !lineTerminator c) ++ t)) (Or.inl (by simp))
      have ends : (t.dropWhile fun c => !lineTerminator c) = t := by
        cases t with
        | nil => rfl
        | cons c t =>
            have stop := List.head?_dropWhile_not (fun c => !lineTerminator c) rest
            rw [← start] at stop
            exact List.dropWhile_cons_of_neg (by simpa using stop)
      have inside : ∀ c ∈ rest.takeWhile (fun c => !lineTerminator c), (!lineTerminator c) = true :=
        List.all_eq_true.mp List.all_takeWhile
      rw [List.append_assoc, List.cons_append, List.cons_append, codeOf, behind, if_pos (by simp)]
      rw [List.dropWhile_cons_of_pos (by decide), List.dropWhile_cons_of_pos (by decide),
        List.dropWhile_append_of_pos inside, ends]
  · have code : codeOf source = unmarked source := if_neg isHashbang
    rw [code]
    refine ⟨mark, same, fun t noHash first => ?_⟩
    have behind := again t (first.symm.imp_left And.left)
    have noHashbang : ¬(unmarked (mark ++ t)).take 2 = ['#', '!'] := by
      rw [behind]
      cases t with
      | nil => simp
      | cons c t =>
          intro isStart
          exact noHash (congrArg some (List.cons.inj isStart).1)
    rw [codeOf, if_neg noHashbang, behind]

end Code

/-! Line numbers. -/
section Lines

/-- The number of line terminators, CR LF being one. -/
def lineBreaks : List Char → Nat
  | [] => 0
  | c :: rest => (if lineTerminator c ∧ ¬(c = '\r' ∧ rest.head? = some '\n') then 1 else 0) + lineBreaks rest

/-- The line number of a position, from zero. -/
def lineOf (text : List Char) (position : Nat) : Nat := lineBreaks text - lineBreaks (text.drop position)

theorem lineBreaks_append {a b : List Char} (apart : b.head? ≠ some '\n' ∨ a.getLast? ≠ some '\r') :
    lineBreaks (a ++ b) = lineBreaks a + lineBreaks b := by
  induction a with
  | nil => simp [lineBreaks]
  | cons c rest ih =>
      have behind : c = '\r' ∧ (rest ++ b).head? = some '\n' ↔ c = '\r' ∧ rest.head? = some '\n' := by
        cases rest with
        | nil =>
            have never : ¬(c = '\r' ∧ b.head? = some '\n') := fun ⟨isReturn, feed⟩ => by
              subst c
              exact apart.elim (· feed) (· rfl)
            simp [never]
        | cons next rest => rfl
      have more : b.head? ≠ some '\n' ∨ rest.getLast? ≠ some '\r' := by
        cases rest with
        | nil => exact Or.inr (by simp)
        | cons next rest => rwa [List.getLast?_cons_cons] at apart
      rw [List.cons_append, lineBreaks, lineBreaks, ih more]
      simp only [behind, Nat.add_assoc]

theorem lineBreaks_none {a : List Char} (oneLine : ∀ c ∈ a, lineTerminator c = false) : lineBreaks a = 0 := by
  induction a with
  | nil => rfl
  | cons c rest ih =>
      rw [lineBreaks, ih fun c mem => oneLine c (by simp [mem]), if_neg (by simp [oneLine c])]

theorem lineBreaks_append_le (a b : List Char) : lineBreaks (a ++ b) ≤ lineBreaks a + lineBreaks b := by
  induction a with
  | nil => simp
  | cons c rest ih =>
      rw [List.cons_append, lineBreaks, lineBreaks, Nat.add_assoc]
      refine Nat.add_le_add ?_ ih
      cases rest with
      | nil =>
          -- CR at the end of the first text may be followed by LF
          split_ifs with counted alone
          · exact Nat.le_refl _
          · exact absurd ⟨counted.1, by simp⟩ alone
          · exact Nat.zero_le _
          · exact Nat.le_refl _
      | cons next rest => exact Nat.le_refl _

theorem lineBreaks_positive {a : List Char} {c : Char} (mem : c ∈ a) (isBreak : c = '\u2028' ∨ c = '\u2029') : 0 < lineBreaks a := by
  induction a with
  | nil => cases mem
  | cons first rest ih =>
      rw [lineBreaks]
      rcases List.mem_cons.mp mem with rfl | mem
      · rw [if_pos (by rcases isBreak with rfl | rfl <;> simp [lineTerminator])]
        omega
      · have more := ih mem
        omega

/-- Text without a line terminator adds no line, unless it comes between CR and LF. -/
theorem lineBreaks_insert {a added b : List Char} (oneLine : ∀ c ∈ added, lineTerminator c = false) (isText : added ≠ [])
    (apart : b.head? ≠ some '\n' ∨ a.getLast? ≠ some '\r') : lineBreaks (a ++ (added ++ b)) = lineBreaks (a ++ b) := by
  have first : (added ++ b).head? ≠ some '\n' := by
    cases added with
    | nil => exact absurd rfl isText
    | cons c more =>
        rintro ⟨⟩
        exact absurd (oneLine '\n' (by simp)) (by decide)
  have last : added.getLast? ≠ some '\r' := fun isReturn =>
    absurd (oneLine '\r' (List.mem_of_getLast? isReturn)) (by decide)
  rw [lineBreaks_append (Or.inl first), lineBreaks_append (Or.inr last), lineBreaks_append apart, lineBreaks_none oneLine,
    Nat.zero_add]

/-- Every character of the text keeps its line number. -/
def KeepsLines (front added rest : List Char) : Prop :=
  ∀ n < (front ++ rest).length,
    lineOf (front ++ (added ++ rest)) (if n < front.length then n else n + added.length) = lineOf (front ++ rest) n

theorem keeps_lines {front added rest : List Char} (oneLine : ∀ c ∈ added, lineTerminator c = false) (isText : added ≠ [])
    (apart : rest.head? ≠ some '\n' ∨ front.getLast? ≠ some '\r') : KeepsLines front added rest := by
  intro n within
  have all := lineBreaks_insert oneLine isText apart
  split
  case isTrue inFront =>
    have apart' : rest.head? ≠ some '\n' ∨ (front.drop n).getLast? ≠ some '\r' := by
      rwa [List.getLast?_drop, if_neg (by omega)]
    rw [lineOf, lineOf, all, List.drop_append_of_le_length inFront.le, List.drop_append_of_le_length inFront.le,
      lineBreaks_insert oneLine isText apart']
  case isFalse behind =>
    have same : (front ++ (added ++ rest)).drop (n + added.length) = (front ++ rest).drop n := by
      have outside : (front ++ added).length ≤ n + added.length := by
        rw [List.length_append]
        omega
      rw [← List.append_assoc, List.drop_append, List.drop_of_length_le outside, List.drop_append,
        List.drop_of_length_le (not_lt.mp behind), List.length_append, Nat.add_sub_add_right]
    rw [lineOf, lineOf, all, same]

/-- No line is kept behind text with a line terminator. -/
theorem keeps_lines_none {front added rest : List Char} (keeps : KeepsLines front added rest) (isText : rest ≠ [])
    (first : added.head? ≠ some '\n') (last : added.getLast? ≠ some '\r') : lineBreaks added = 0 := by
  cases added with
  | nil => rfl
  | cons c added =>
      have within : front.length < (front ++ rest).length := by
        have positive := List.length_pos_iff.mpr isText
        rw [List.length_append]
        omega
      have behind : (front ++ (c :: added ++ rest)).drop (front.length + (c :: added).length) = rest := by
        rw [← List.append_assoc, ← List.length_append, List.drop_left]
      have first : (c :: added ++ rest).head? ≠ some '\n' := first
      have kept := keeps front.length within
      rw [if_neg (Nat.lt_irrefl _), lineOf, lineOf, behind, List.drop_left, lineBreaks_append (Or.inl first),
        lineBreaks_append (Or.inr last)] at kept
      have fewer := lineBreaks_append_le front rest
      omega

end Lines

end Countinghouse.EcmascriptText
