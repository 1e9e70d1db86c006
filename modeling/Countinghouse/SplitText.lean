import Mathlib.Data.List.Infix
import Mathlib.Data.String.Basic

/-!
Texts that are joined with a separator and split at it again, or cut. `pieces` looks for the
separator from the front, and goes on behind it when it has found one. Nothing here belongs to
a particular program.
-/

namespace Countinghouse.SplitText

universe u
variable {α : Type u} [DecidableEq α]

/-- The pieces of a text, of which `held` is the beginning of the first. -/
def piecesFrom (separator : List α) (held : List α) : List α → List (List α)
  | [] => [held]
  | symbol :: rest =>
      if separator <+: symbol :: rest ∧ separator ≠ [] then
        held :: piecesFrom separator [] (rest.drop (separator.length - 1))
      else piecesFrom separator (held ++ [symbol]) rest
termination_by text => text.length
decreasing_by
  · simp only [List.length_drop, List.length_cons]
    omega
  · simp

def pieces (separator text : List α) : List (List α) := piecesFrom separator [] text

variable {separator : List α}

theorem pieces_from_nil (held : List α) : piecesFrom separator held [] = [held] := by
  rw [piecesFrom]

theorem pieces_from_found (some : separator ≠ []) (held rest : List α) :
    piecesFrom separator held (separator ++ rest) = held :: piecesFrom separator [] rest := by
  cases separator with
  | nil => exact absurd rfl some
  | cons symbol more =>
      have found : symbol :: more <+: symbol :: (more ++ rest) := ⟨rest, rfl⟩
      rw [List.cons_append, piecesFrom, if_pos ⟨found, some⟩]
      simp

theorem pieces_from_passed {held rest : List α} {symbol : α} (none : ¬ separator <+: symbol :: rest) :
    piecesFrom separator held (symbol :: rest) = piecesFrom separator (held ++ [symbol]) rest := by
  rw [piecesFrom, if_neg fun found => none found.1]

/-- The separator is found behind the piece, and not before. -/
def Ends (separator piece : List α) : Prop :=
  ∀ before after, piece = before ++ after → after ≠ [] → ¬ separator <+: after ++ separator

/-- The separator is found nowhere in the piece. -/
def Free (separator piece : List α) : Prop := ¬ separator <:+: piece

theorem pieces_from_ends (some : separator ≠ []) (piece : List α) (ends : Ends separator piece) (held rest : List α) :
    piecesFrom separator held (piece ++ separator ++ rest) = (held ++ piece) :: piecesFrom separator [] rest := by
  induction piece generalizing held with
  | nil => simpa using pieces_from_found some held rest
  | cons symbol more ih =>
      have passed : ¬ separator <+: symbol :: (more ++ separator ++ rest) := by
        intro found
        -- what is found in front of `rest` is not longer than the piece with the separator
        have whole : symbol :: more ++ separator <+: symbol :: (more ++ separator ++ rest) := ⟨rest, by simp⟩
        exact ends [] (symbol :: more) rfl (by simp) (List.prefix_of_prefix_length_le found whole (by simp; omega))
      have later : Ends separator more := fun before after split nonempty =>
        ends (symbol :: before) after (by rw [split, List.cons_append]) nonempty
      rw [List.cons_append, List.cons_append, pieces_from_passed passed, ih later, List.append_assoc]
      rfl

theorem pieces_from_free (piece : List α) (free : Free separator piece) (held : List α) :
    piecesFrom separator held piece = [held ++ piece] := by
  induction piece generalizing held with
  | nil => simpa using pieces_from_nil held
  | cons symbol more ih =>
      have passed : ¬ separator <+: symbol :: more := fun found => free found.isInfix
      have later : Free separator more := fun found => free (found.trans (List.suffix_cons symbol more).isInfix)
      rw [pieces_from_passed passed, ih later, List.append_assoc]
      rfl

/-- What comes out first is the text up to the first separator, or all of it. -/
theorem pieces_from_cases (some : separator ≠ []) (text held : List α) :
    (Free separator text ∧ piecesFrom separator held text = [held ++ text]) ∨
      ∃ piece rest, text = piece ++ separator ++ rest ∧ Ends separator piece ∧
        piecesFrom separator held text = (held ++ piece) :: piecesFrom separator [] rest := by
  by_cases free : Free separator text
  · exact Or.inl ⟨free, pieces_from_free text free held⟩
  · right
    induction text generalizing held with
    | nil =>
        have inside : separator <:+: [] := not_not.mp free
        exact absurd (List.infix_nil.mp inside) some
    | cons symbol more ih =>
        by_cases found : separator <+: symbol :: more
        · obtain ⟨rest, isText⟩ := found
          refine ⟨[], rest, by simpa using isText.symm, ?_, ?_⟩
          · intro before after split nonempty
            exact absurd (List.append_eq_nil_iff.mp split.symm).2 nonempty
          · rw [← isText, pieces_from_found some, List.append_nil]
        · have later : ¬ Free separator more := by
            intro isFree
            rcases List.infix_cons_iff.mp (not_not.mp free) with front | inside
            · exact found front
            · exact isFree inside
          obtain ⟨piece, rest, isMore, ends, isPieces⟩ := ih (held ++ [symbol]) later
          refine ⟨symbol :: piece, rest, by simp [isMore], ?_, ?_⟩
          · intro before after split nonempty front
            -- a separator can begin at this symbol or at a later one
            cases before with
            | nil =>
                rw [List.nil_append] at split
                have here : separator <+: symbol :: more :=
                  front.trans ⟨rest, by rw [← split, isMore]; simp⟩
                exact found here
            | cons head before =>
                simp only [List.cons_append, List.cons.injEq] at split
                exact ends before after split.2 nonempty front
          · rw [pieces_from_passed found, isPieces]
            simp

/-- A text without separators is split off exactly when it ends at its own separator. -/
theorem pieces_cons_iff (some : separator ≠ []) (piece rest : List α) :
    pieces separator (piece ++ separator ++ rest) = piece :: pieces separator rest ↔ Ends separator piece := by
  constructor
  · intro isPieces
    rcases pieces_from_cases some (piece ++ separator ++ rest) [] with ⟨_, isOne⟩ | ⟨other, after, split, ends, isCons⟩
    · have one : piece :: pieces separator rest = [[] ++ (piece ++ separator ++ rest)] := isPieces ▸ isOne
      have nonempty : pieces separator rest ≠ [] := by
        rcases pieces_from_cases some rest [] with ⟨_, is⟩ | ⟨_, _, _, _, is⟩ <;> simp [pieces, is]
      exact absurd (List.cons.inj one).2 nonempty
    · have heads : piece :: pieces separator rest = ([] ++ other) :: piecesFrom separator [] after := isPieces ▸ isCons
      have same : piece = other := by simpa using (List.cons.inj heads).1
      exact same ▸ ends
  · intro ends
    simpa [pieces] using pieces_from_ends some piece ends [] rest

theorem pieces_one_iff (some : separator ≠ []) (piece : List α) :
    pieces separator piece = [piece] ↔ Free separator piece := by
  constructor
  · intro isPieces
    rcases pieces_from_cases some piece [] with ⟨free, _⟩ | ⟨other, after, split, _, isCons⟩
    · exact free
    · have heads : [piece] = ([] ++ other) :: piecesFrom separator [] after := isPieces ▸ isCons
      have lengths := congrArg List.length split
      have same : piece = other := by simpa using (List.cons.inj heads).1
      have positive := List.length_pos_iff.mpr some
      simp only [List.length_append, same] at lengths
      omega
  · intro free
    simpa [pieces] using pieces_from_free piece free []

/-- Two pieces come out as they went in. -/
theorem pieces_pair_iff (some : separator ≠ []) (first second : List α) :
    pieces separator (first ++ separator ++ second) = [first, second] ↔ Ends separator first ∧ Free separator second := by
  constructor
  · intro isPieces
    rcases pieces_from_cases some (first ++ separator ++ second) [] with ⟨_, isOne⟩ | ⟨piece, rest, split, ends, isCons⟩
    · have one : [first, second] = [[] ++ (first ++ separator ++ second)] := isPieces ▸ isOne
      exact absurd (congrArg List.length one) (by simp)
    · have both : [first, second] = ([] ++ piece) :: pieces separator rest := isPieces ▸ isCons
      simp only [List.nil_append, List.cons.injEq] at both
      obtain ⟨rfl, isRest⟩ := both
      have same : second = rest := List.append_cancel_left split
      subst same
      exact ⟨ends, (pieces_one_iff some second).mp isRest.symm⟩
  · rintro ⟨ends, free⟩
    rw [(pieces_cons_iff some first second).mpr ends, (pieces_one_iff some second).mpr free]

omit [DecidableEq α] in
/-- Behind a piece, a separator of one repeated symbol is found where it stands unless the piece
ends with the symbol. -/
theorem ends_replicate_iff (symbol : α) (more : Nat) (piece : List α) :
    Ends (List.replicate (more + 1) symbol) piece ↔
      Free (List.replicate (more + 1) symbol) piece ∧ piece.getLast? ≠ some symbol := by
  constructor
  · intro ends
    constructor
    · rintro ⟨before, after, rfl⟩
      refine ends before (List.replicate (more + 1) symbol ++ after) (List.append_assoc _ _ _) (by simp) ?_
      exact ⟨after ++ List.replicate (more + 1) symbol, by simp⟩
    · intro last
      obtain ⟨before, rfl⟩ := List.getLast?_eq_some_iff.mp last
      refine ends before [symbol] rfl (by simp) ⟨[symbol], ?_⟩
      rw [← List.replicate_succ', List.singleton_append, ← List.replicate_succ]
  · rintro ⟨free, last⟩ before after rfl nonempty found
    -- the separator found lies inside the piece, or it uses up the end of it, which is then the symbol
    by_cases within : more + 1 ≤ after.length
    · have inside : List.replicate (more + 1) symbol <+: after :=
        List.prefix_of_prefix_length_le found (List.prefix_append _ _) (by simpa using within)
      exact free (inside.isInfix.trans (List.suffix_append before after).isInfix)
    · have part : after <+: List.replicate (more + 1) symbol :=
        List.prefix_of_prefix_length_le (List.prefix_append _ _) found (by simp; omega)
      have isLast := List.getLast_mem nonempty
      have same : after.getLast nonempty = symbol := List.eq_of_mem_replicate (part.subset isLast)
      apply last
      rw [List.getLast?_append_of_ne_nil _ nonempty, List.getLast?_eq_some_getLast nonempty, same]

/-! `String.splitOn` is the same function on the positions of a text. -/
section Positions

open String

/-- `splitOnAux` stands behind `matched`, the part of the separator that it has seen. -/
theorem split_on_aux_pieces (separator front held matched ahead rest : List Char) (found : List String)
    (split : separator = matched ++ ahead) (left : ahead ≠ []) :
    splitOnAux (ofList (front ++ held ++ matched ++ rest)) (ofList separator) ⟨utf8Len front⟩
        ⟨utf8Len (front ++ held ++ matched)⟩ ⟨utf8Len matched⟩ found =
      found.reverse ++ (piecesFrom separator held (matched ++ rest)).map ofList := by
  unfold splitOnAux
  cases rest with
  | nil =>
      have short : Free separator matched := by
        intro inside
        have lengths := inside.length_le
        have positive := List.length_pos_iff.mpr left
        rw [split, List.length_append] at lengths
        omega
      have atEnd : (⟨utf8Len (front ++ held ++ matched)⟩ : Pos.Raw).atEnd (ofList (front ++ held ++ matched ++ [])) := by
        rw [atEnd_of_valid]
      have last := extract_of_valid front (held ++ matched) []
      rw [if_pos atEnd, List.append_nil matched, pieces_from_free matched short held]
      simp only [List.append_assoc, utf8Len_append, List.append_nil] at last ⊢
      simp [-ofList_append, last]
  | cons symbol rest =>
      obtain ⟨next, ahead, rfl⟩ := List.exists_cons_of_ne_nil left
      have notEnd : ¬ (⟨utf8Len (front ++ held ++ matched)⟩ : Pos.Raw).atEnd
          (ofList (front ++ held ++ matched ++ symbol :: rest)) := by
        rw [atEnd_of_valid]
        simp
      have here := get_of_valid (front ++ held ++ matched) (symbol :: rest)
      have wanted := get_of_valid matched (next :: ahead)
      have after := next_of_valid (front ++ held ++ matched) symbol rest
      have onward := next_of_valid matched next ahead
      rw [if_neg notEnd, split]
      simp only [here, wanted, List.headD_cons, beq_iff_eq, after, onward]
      by_cases same : symbol = next
      · subst same
        rw [if_pos rfl]
        have moved : utf8Len (front ++ held ++ matched) + symbol.utf8Size =
            utf8Len (front ++ held ++ (matched ++ [symbol])) := by
          simp only [utf8Len_append, utf8Len_cons, utf8Len_nil]
          omega
        have seen : utf8Len matched + symbol.utf8Size = utf8Len (matched ++ [symbol]) := by simp
        rw [moved, seen]
        cases ahead with
        | nil =>
            have whole : (⟨utf8Len (matched ++ [symbol])⟩ : Pos.Raw).atEnd (ofList (matched ++ [symbol])) := by
              have stop := (atEnd_of_valid (matched ++ [symbol]) []).mpr rfl
              rwa [List.append_nil] at stop
            have piece := extract_of_valid front held (matched ++ symbol :: rest)
            have later := split_on_aux_pieces (matched ++ [symbol]) (front ++ held ++ (matched ++ [symbol])) [] []
              (matched ++ [symbol]) rest (ofList held :: found) rfl (by simp)
            have nonempty : matched ++ [symbol] ≠ [] := by simp
            have isFound := pieces_from_found nonempty held rest
            have passed : (⟨utf8Len (front ++ held ++ (matched ++ [symbol]))⟩ : Pos.Raw).unoffsetBy
                ⟨utf8Len (matched ++ [symbol])⟩ = ⟨utf8Len front + utf8Len held⟩ := by
              simp only [Pos.Raw.unoffsetBy, utf8Len_append, Nat.add_sub_cancel]
            rw [if_pos whole, passed]
            simp only [List.append_assoc, List.cons_append, List.nil_append, List.append_nil, utf8Len_nil] at piece later isFound ⊢
            rw [piece, show (0 : Pos.Raw) = ⟨0⟩ from rfl, later, isFound]
            simp
        | cons other ahead =>
            have notWhole : ¬ (⟨utf8Len (matched ++ [symbol])⟩ : Pos.Raw).atEnd
                (ofList (matched ++ symbol :: other :: ahead)) := by
              have part := atEnd_of_valid (matched ++ [symbol]) (other :: ahead)
              simpa [-ofList_append] using part
            have later := split_on_aux_pieces (matched ++ symbol :: other :: ahead) front held (matched ++ [symbol])
              (other :: ahead) rest found (by simp) (by simp)
            rw [if_neg notWhole]
            simpa [-ofList_append] using later
      · rw [if_neg same]
        have notFront : ¬ matched ++ next :: ahead <+: matched ++ symbol :: rest := by
          rw [List.prefix_append_right_inj]
          intro front
          exact same (List.cons_prefix_cons.mp front).1.symm
        -- the search goes on behind the first character of what was matched
        obtain ⟨first, tail, isText⟩ := List.exists_cons_of_ne_nil
          (show matched ++ symbol :: rest ≠ [] by simp)
        have lengths := congrArg List.length isText
        have later := split_on_aux_pieces (matched ++ next :: ahead) front (held ++ [first]) [] (matched ++ next :: ahead)
          tail found rfl (by simp)
        have back : (⟨utf8Len (front ++ held ++ matched)⟩ : Pos.Raw).unoffsetBy ⟨utf8Len matched⟩ =
            ⟨utf8Len (front ++ held)⟩ := by
          simp only [Pos.Raw.unoffsetBy, utf8Len_append, Nat.add_sub_cancel]
        have whole : front ++ held ++ matched ++ symbol :: rest = front ++ held ++ (first :: tail) := by
          rw [← isText, List.append_assoc _ matched]
        rw [back, whole, next_of_valid, isText, pieces_from_passed (isText ▸ notFront)]
        simp only [List.append_assoc, List.cons_append, List.nil_append, List.append_nil, utf8Len_nil] at later ⊢
        rw [show (0 : Pos.Raw) = ⟨0⟩ from rfl, ← later]
        simp [-ofList_append, Nat.add_assoc]
termination_by (matched.length + rest.length, separator.length - matched.length)
decreasing_by
  · exact Prod.Lex.left _ _ (by simp; omega)
  · exact Prod.Lex.right' _ (by simp; omega) (by simp [split]; omega)
  · exact Prod.Lex.left _ _ (by simp at lengths ⊢; omega)

theorem split_on_pieces (text separator : String) (some : separator ≠ "") :
    text.splitOn separator = (pieces separator.toList text.toList).map ofList := by
  have nonempty : separator.toList ≠ [] := by simpa using some
  have whole := split_on_aux_pieces separator.toList [] [] [] separator.toList text.toList [] rfl nonempty
  rw [String.splitOn, if_neg (by simpa using some)]
  simpa [pieces] using whole

end Positions

/-- The UTF-16 units of a text. Half of a surrogate pair is no text by itself. -/
def codeUnits (text : String) : List String :=
  text.toList.flatMap fun c => if c.toNat < 0x10000 then [String.singleton c] else ["\uFFFD", "\uFFFD"]

/-- `text.slice(0, limit)`, which goes by UTF-16 units. A character of two that is cut in half is left out. -/
def sliceUnits : Nat → List Char → List Char
  | _, [] => []
  | limit, c :: rest =>
      let units := if c.toNat < 0x10000 then 1 else 2
      if units ≤ limit then c :: sliceUnits (limit - units) rest else []

end Countinghouse.SplitText
