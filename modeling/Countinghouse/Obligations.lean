import Countinghouse.Program

/-!
Programs that run beside others. What a program's actions are answered is then not known
from one world: `Ledger` says which answers may come and what the program owes after each,
and `Owes` is the weakest precondition of a statement about the end of the program, for
every sequence of answers. Nothing here belongs to a particular program.
-/

namespace Countinghouse.Obligations

open Program

/-- What a program owes, action by action. -/
structure Ledger (Act : Type) (Answer : Act → Type) (Duty : Type) where
  may : Duty → Act → Prop
  comes : Duty → (action : Act) → Answer action → Prop
  after : Duty → (action : Act) → Answer action → Duty

section

variable {Act : Type} {Answer : Act → Type} {Duty ε α β : Type} (ledger : Ledger Act Answer Duty)

/-- Every action may be done, and the program ends in `ok` or in `bad`, whatever it is answered. -/
def Owes (ok : α → Duty → Prop) (bad : ε → Duty → Prop) : Prog Act Answer ε α → Duty → Prop
  | .done value, duty => ok value duty
  | .fail error, duty => bad error duty
  | .act action next, duty =>
      ledger.may duty action ∧
        ∀ answer, ledger.comes duty action answer → Owes ok bad (next answer) (ledger.after duty action answer)

variable {ledger} {ok : α → Duty → Prop} {bad : ε → Duty → Prop} {duty : Duty}

theorem owes_pure {value : α} (holds : ok value duty) :
    Owes ledger ok bad (pure value : Prog Act Answer ε α) duty := holds

theorem owes_throw {error : ε} (holds : bad error duty) :
    Owes ledger ok bad (throw error : Prog Act Answer ε α) duty := holds

theorem owes_mono {ok' : α → Duty → Prop} {bad' : ε → Duty → Prop} {prog : Prog Act Answer ε α}
    (owes : Owes ledger ok bad prog duty) (ends : ∀ value after, ok value after → ok' value after)
    (fails : ∀ error after, bad error after → bad' error after) : Owes ledger ok' bad' prog duty := by
  induction prog generalizing duty with
  | done value => exact ends _ _ owes
  | fail error => exact fails _ _ owes
  | act action next ih => exact ⟨owes.1, fun answer comes => ih answer (owes.2 answer comes)⟩

theorem owes_bind {first : Prog Act Answer ε α} {rest : α → Prog Act Answer ε β} {ok : β → Duty → Prop}
    {middle : α → Duty → Prop} (head : Owes ledger middle bad first duty)
    (tail : ∀ value after, middle value after → Owes ledger ok bad (rest value) after) :
    Owes ledger ok bad (first >>= rest) duty := by
  change Owes ledger ok bad (first.bind rest) duty
  induction first generalizing duty with
  | done value => exact tail _ _ head
  | fail error => exact head
  | act action next ih => exact ⟨head.1, fun answer comes => ih answer (head.2 answer comes)⟩

/-- `owes_bind`, saying what holds in between. -/
theorem owes_bind_via (middle : α → Duty → Prop) {first : Prog Act Answer ε α} {rest : α → Prog Act Answer ε β}
    {ok : β → Duty → Prop} (head : Owes ledger middle bad first duty)
    (tail : ∀ value after, middle value after → Owes ledger ok bad (rest value) after) :
    Owes ledger ok bad (first >>= rest) duty := owes_bind head tail

theorem owes_catch {body : Prog Act Answer ε α} {handler : ε → Prog Act Answer ε α} {middle : ε → Duty → Prop}
    (head : Owes ledger ok middle body duty)
    (caught : ∀ error after, middle error after → Owes ledger ok bad (handler error) after) :
    Owes ledger ok bad (tryCatch body handler) duty := by
  change Owes ledger ok bad (body.recover handler) duty
  induction body generalizing duty with
  | done value => exact head
  | fail error => exact caught _ _ head
  | act action next ih => exact ⟨head.1, fun answer comes => ih answer (head.2 answer comes)⟩

theorem owes_ensure {body : Prog Act Answer ε α} {last : Prog Act Answer ε Unit} {middle : α → Duty → Prop}
    {failed : ε → Duty → Prop} (head : Owes ledger middle failed body duty)
    (ended : ∀ value after, middle value after → Owes ledger (fun _ => ok value) bad last after)
    (broken : ∀ error after, failed error after → Owes ledger (fun _ => bad error) bad last after) :
    Owes ledger ok bad (body.ensure last) duty := by
  have caught : Owes ledger middle bad (tryCatch body fun error => do
      last
      throw error) duty := by
    apply owes_catch head
    intro error after failed
    exact owes_bind (broken error after failed) fun _ _ holds => owes_throw holds
  apply owes_bind caught
  intro value after holds
  exact owes_bind (ended value after holds) fun _ _ done => owes_pure done

/-! Programs whose actions change nothing that is owed. -/

/-- Every action of the program, whatever it is answered, is of one kind. -/
def Only (kind : Act → Prop) : Prog Act Answer ε α → Prop
  | .done _ => True
  | .fail _ => True
  | .act action next => kind action ∧ ∀ answer, Only kind (next answer)

variable {kind : Act → Prop}

theorem only_pure (value : α) : Only kind (pure value : Prog Act Answer ε α) := trivial

theorem only_throw (error : ε) : Only kind (throw error : Prog Act Answer ε α) := trivial

theorem only_bind {first : Prog Act Answer ε α} {rest : α → Prog Act Answer ε β} (head : Only kind first)
    (tail : ∀ value, Only kind (rest value)) : Only kind (first >>= rest) := by
  change Only kind (first.bind rest)
  induction first with
  | done value => exact tail value
  | fail error => trivial
  | act action next ih => exact ⟨head.1, fun answer => ih answer (head.2 answer)⟩

theorem only_catch {body : Prog Act Answer ε α} {handler : ε → Prog Act Answer ε α} (head : Only kind body)
    (caught : ∀ error, Only kind (handler error)) : Only kind (tryCatch body handler) := by
  change Only kind (body.recover handler)
  induction body with
  | done value => trivial
  | fail error => exact caught error
  | act action next ih => exact ⟨head.1, fun answer => ih answer (head.2 answer)⟩

theorem only_ite {condition : Prop} [Decidable condition] {yes no : Prog Act Answer ε α} (first : Only kind yes)
    (second : Only kind no) : Only kind (if condition then yes else no) := by
  split
  · exact first
  · exact second

theorem only_mono {wider : Act → Prop} (weaker : ∀ action, kind action → wider action) {prog : Prog Act Answer ε α}
    (only : Only kind prog) : Only wider prog := by
  induction prog with
  | done value => trivial
  | fail error => trivial
  | act action next ih => exact ⟨weaker action only.1, fun answer => ih answer (only.2 answer)⟩

/-- A program of actions that keep a relation keeps it. -/
theorem owes_only {keeps : Duty → Duty → Prop} (refl : ∀ duty, keeps duty duty)
    (trans : ∀ {a b c}, keeps a b → keeps b c → keeps a c)
    (acts : ∀ duty action, kind action → ledger.may duty action ∧
      ∀ answer, ledger.comes duty action answer → keeps duty (ledger.after duty action answer))
    {prog : Prog Act Answer ε α} (only : Only kind prog) :
    Owes ledger (fun _ => keeps duty) (fun _ => keeps duty) prog duty := by
  induction prog generalizing duty with
  | done value => exact refl duty
  | fail error => exact refl duty
  | act action next ih =>
      refine ⟨(acts duty action only.1).1, fun answer comes => ?_⟩
      have kept := (acts duty action only.1).2 answer comes
      exact owes_mono (ih answer (only.2 answer)) (fun _ _ => trans kept) (fun _ _ => trans kept)

end

end Countinghouse.Obligations
