import Mathlib.Data.List.Forall2

/-!
Texts from which a value can be read off, up to a relation between values. A text is read up to
a symbol at which it has to stop; what follows is left over. Nothing here belongs to a
particular program.
-/

namespace Countinghouse.UniqueReading

universe u v
variable {Symbol : Type u} {Value : Type v}

/-- What is left over begins with a symbol that ends a text. -/
def Stopped (stop : Symbol → Prop) (rest : List Symbol) : Prop := ∀ symbol ∈ rest.head?, stop symbol

/-- Whatever else is printed like this value, with something left over, is the same, and so is what is left. -/
def Reads (print : Value → List Symbol) (same : Value → Value → Prop) (stop : Symbol → Prop) (value : Value) : Prop :=
  ∀ other rest left, Stopped stop rest → Stopped stop left → print value ++ rest = print other ++ left →
    same value other ∧ rest = left

theorem stopped_nil (stop : Symbol → Prop) : Stopped stop [] := by simp [Stopped]

theorem stopped_cons {stop : Symbol → Prop} {symbol : Symbol} (stops : stop symbol) (rest : List Symbol) :
    Stopped stop (symbol :: rest) := by
  simpa [Stopped] using stops

/-- A run of symbols of a kind is read up to a symbol of another kind. -/
theorem run_reads {inRun : Symbol → Prop} {text other rest left : List Symbol} (all : ∀ symbol ∈ text, inRun symbol)
    (otherAll : ∀ symbol ∈ other, inRun symbol) (stopped : Stopped (fun symbol => ¬ inRun symbol) rest)
    (leftStopped : Stopped (fun symbol => ¬ inRun symbol) left) (equal : text ++ rest = other ++ left) :
    text = other ∧ rest = left := by
  induction text generalizing other with
  | nil =>
      cases other with
      | nil => exact ⟨rfl, equal⟩
      | cons symbol more =>
          rw [List.nil_append] at equal
          exact absurd (otherAll symbol List.mem_cons_self) (stopped symbol (by simp [equal]))
  | cons symbol more ih =>
      cases other with
      | nil =>
          rw [List.nil_append] at equal
          exact absurd (all symbol List.mem_cons_self) (leftStopped symbol (by simp [← equal]))
      | cons first others =>
          simp only [List.cons_append, List.cons.injEq] at equal
          obtain ⟨rfl, equal⟩ := equal
          obtain ⟨rfl, isLeft⟩ := ih (fun symbol member => all symbol (List.mem_cons_of_mem _ member))
            (fun symbol member => otherAll symbol (List.mem_cons_of_mem _ member)) equal
          exact ⟨rfl, isLeft⟩

/-! Lists of values, with a separator between them and a symbol behind the last one. -/
section Lists

variable (separator close : Symbol) (print : Value → List Symbol)

/-- What follows a value in a list. -/
def printTail : List Value → List Symbol
  | [] => [close]
  | value :: rest => separator :: (print value ++ printTail rest)

def printList : List Value → List Symbol
  | [] => [close]
  | value :: rest => print value ++ printTail separator close print rest

/-- The text of a value is not empty and does not begin with the closing symbol. -/
def Opens : Prop := ∀ value, ∃ first more, print value = first :: more ∧ first ≠ close

theorem print_list_intercalate (values : List Value) :
    List.intercalate [separator] (values.map print) ++ [close] = printList separator close print values := by
  cases values with
  | nil => rfl
  | cons value rest =>
      induction rest generalizing value with
      | nil => simp [printList, printTail, List.intercalate]
      | cons next rest ih =>
          have later := ih next
          simp only [List.map_cons, List.intercalate, List.intersperse_cons_cons, List.flatten_cons, printList, printTail] at later ⊢
          rw [List.append_assoc, List.append_assoc, later]
          rfl

variable {separator close print} {same : Value → Value → Prop} {stop : Symbol → Prop}

theorem tail_stopped (stopSeparator : stop separator) (stopClose : stop close) (values : List Value)
    (rest : List Symbol) : Stopped stop (printTail separator close print values ++ rest) := by
  cases values with
  | nil => exact stopped_cons stopClose rest
  | cons value more => exact stopped_cons stopSeparator _

theorem tail_reads (stopSeparator : stop separator) (stopClose : stop close) (apart : separator ≠ close)
    (values : List Value) (reads : ∀ value ∈ values, Reads print same stop value) :
    ∀ others rest left, printTail separator close print values ++ rest = printTail separator close print others ++ left →
      List.Forall₂ same values others ∧ rest = left := by
  induction values with
  | nil =>
      intro others rest left equal
      cases others with
      | nil => exact ⟨.nil, by simpa [printTail] using equal⟩
      | cons other more =>
          simp only [printTail, List.cons_append, List.cons.injEq] at equal
          exact absurd equal.1.symm apart
  -- the value ends where the separator or the closing symbol stops it
  | cons value values ih =>
      intro others rest left equal
      cases others with
      | nil =>
          simp only [printTail, List.cons_append, List.cons.injEq] at equal
          exact absurd equal.1 apart
      | cons other more =>
          simp only [printTail, List.cons_append, List.cons.injEq, true_and, List.append_assoc] at equal
          obtain ⟨isSame, tails⟩ := reads value List.mem_cons_self other _ _
            (tail_stopped stopSeparator stopClose values rest) (tail_stopped stopSeparator stopClose more left) equal
          obtain ⟨areSame, isLeft⟩ := ih (fun value member => reads value (List.mem_cons_of_mem _ member)) more rest left tails
          exact ⟨.cons isSame areSame, isLeft⟩

/-- A list is read value by value. -/
theorem list_reads (stopSeparator : stop separator) (stopClose : stop close) (apart : separator ≠ close)
    (opens : Opens close print) (values : List Value) (reads : ∀ value ∈ values, Reads print same stop value)
    (others : List Value) {rest left : List Symbol}
    (equal : printList separator close print values ++ rest = printList separator close print others ++ left) :
    List.Forall₂ same values others ∧ rest = left := by
  cases values with
  | nil =>
      cases others with
      | nil => exact ⟨.nil, by simpa [printList] using equal⟩
      | cons other more =>
          obtain ⟨first, text, isText, notClose⟩ := opens other
          simp only [printList, isText, List.cons_append, List.cons.injEq] at equal
          exact absurd equal.1.symm notClose
  | cons value values =>
      cases others with
      | nil =>
          obtain ⟨first, text, isText, notClose⟩ := opens value
          simp only [printList, isText, List.cons_append, List.cons.injEq] at equal
          exact absurd equal.1 notClose
      | cons other more =>
          simp only [printList, List.append_assoc] at equal
          obtain ⟨isSame, tails⟩ := reads value List.mem_cons_self other _ _
            (tail_stopped stopSeparator stopClose values rest) (tail_stopped stopSeparator stopClose more left) equal
          obtain ⟨areSame, isLeft⟩ := tail_reads stopSeparator stopClose apart values
            (fun value member => reads value (List.mem_cons_of_mem _ member)) more rest left tails
          exact ⟨.cons isSame areSame, isLeft⟩

end Lists

end Countinghouse.UniqueReading
