/-!
Programs as trees of actions, and their runs in a world.

A program ends with a value, fails with an error, or does one action and goes on
with the answer; an `await` of the source is one action. `run` lets it do its
actions one after another, `trace` lists them with the world each was done in, and
`Spec` is the weakest precondition of a statement about all of that. Nothing here
belongs to a particular program.
-/

namespace Countinghouse.Program

inductive Prog (Act : Type) (Answer : Act → Type) (ε α : Type) where
  | done (value : α)
  | fail (error : ε)
  | act (action : Act) (next : Answer action → Prog Act Answer ε α)

section

variable {Act : Type} {Answer : Act → Type} {ε α β : Type}

namespace Prog

def bind : Prog Act Answer ε α → (α → Prog Act Answer ε β) → Prog Act Answer ε β
  | done value, rest => rest value
  | fail error, _ => fail error
  | act action next, rest => act action fun answer => (next answer).bind rest

def recover : Prog Act Answer ε α → (ε → Prog Act Answer ε α) → Prog Act Answer ε α
  | done value, _ => done value
  | fail error, handler => handler error
  | act action next, handler => act action fun answer => (next answer).recover handler

instance : Monad (Prog Act Answer ε) where
  pure := done
  bind := bind

instance : MonadExceptOf ε (Prog Act Answer ε) where
  throw := fail
  tryCatch := recover

/-- One action as a program. -/
def perform (action : Act) : Prog Act Answer ε (Answer action) := act action done

/-- `try body finally last`, where `last` is taken not to fail. -/
def ensure (body : Prog Act Answer ε α) (last : Prog Act Answer ε Unit) : Prog Act Answer ε α := do
  let value ← tryCatch body fun error => do
    last
    throw error
  last
  return value

end Prog

variable {World : Type}

/-- The world answers an action and changes. -/
abbrev Handler (Act : Type) (Answer : Act → Type) (World : Type) :=
  (action : Act) → World → Answer action × World

def Prog.run (handle : Handler Act Answer World) : Prog Act Answer ε α → World → Except ε α × World
  | .done value, world => (.ok value, world)
  | .fail error, world => (.error error, world)
  | .act action next, world =>
      (next (handle action world).1).run handle (handle action world).2

def Prog.trace (handle : Handler Act Answer World) : Prog Act Answer ε α → World → List (World × Act)
  | .done _, _ => []
  | .fail _, _ => []
  | .act action next, world =>
      (world, action) :: (next (handle action world).1).trace handle (handle action world).2

/-- Every action of the run satisfies `good` in its world, and the run ends in
`ok` or in `bad`. -/
def Prog.Spec (handle : Handler Act Answer World) (good : World → Act → Prop)
    (ok : α → World → Prop) (bad : ε → World → Prop) : Prog Act Answer ε α → World → Prop
  | .done value, world => ok value world
  | .fail error, world => bad error world
  | .act action next, world =>
      good world action ∧
        (next (handle action world).1).Spec handle good ok bad (handle action world).2

variable {handle : Handler Act Answer World} {good : World → Act → Prop}
  {ok : α → World → Prop} {bad : ε → World → Prop}

theorem spec_iff (prog : Prog Act Answer ε α) (world : World) :
    prog.Spec handle good ok bad world ↔
      (∀ entry ∈ prog.trace handle world, good entry.1 entry.2) ∧
        match prog.run handle world with
        | (.ok value, after) => ok value after
        | (.error error, after) => bad error after := by
  induction prog generalizing world with
  | done value => simp [Prog.Spec, Prog.trace, Prog.run]
  | fail error => simp [Prog.Spec, Prog.trace, Prog.run]
  | act action next ih => simp [Prog.Spec, Prog.trace, Prog.run, ih, and_assoc]

@[simp] theorem spec_pure (value : α) (world : World) :
    (pure value : Prog Act Answer ε α).Spec handle good ok bad world ↔ ok value world := Iff.rfl

@[simp] theorem spec_throw (error : ε) (world : World) :
    (throw error : Prog Act Answer ε α).Spec handle good ok bad world ↔ bad error world := Iff.rfl

@[simp] theorem spec_perform (action : Act) (ok : Answer action → World → Prop) (world : World) :
    (Prog.perform action : Prog Act Answer ε _).Spec handle good ok bad world ↔
      good world action ∧ ok (handle action world).1 (handle action world).2 := Iff.rfl

@[simp] theorem spec_bind (first : Prog Act Answer ε α) (rest : α → Prog Act Answer ε β)
    (ok : β → World → Prop) (world : World) :
    (first >>= rest).Spec handle good ok bad world ↔
      first.Spec handle good (fun value after => (rest value).Spec handle good ok bad after) bad
        world := by
  change (first.bind rest).Spec handle good ok bad world ↔ _
  induction first generalizing world with
  | done value => exact Iff.rfl
  | fail error => exact Iff.rfl
  | act action next ih => simp only [Prog.bind, Prog.Spec, ih]

@[simp] theorem spec_catch (body : Prog Act Answer ε α) (handler : ε → Prog Act Answer ε α)
    (world : World) :
    (tryCatch body handler).Spec handle good ok bad world ↔
      body.Spec handle good ok (fun error after => (handler error).Spec handle good ok bad after)
        world := by
  change (body.recover handler).Spec handle good ok bad world ↔ _
  induction body generalizing world with
  | done value => exact Iff.rfl
  | fail error => exact Iff.rfl
  | act action next ih => simp only [Prog.recover, Prog.Spec, ih]

@[simp] theorem spec_ite (condition : Prop) [Decidable condition] (yes no : Prog Act Answer ε α)
    (world : World) :
    (if condition then yes else no).Spec handle good ok bad world ↔
      if condition then yes.Spec handle good ok bad world
      else no.Spec handle good ok bad world := by
  split <;> exact Iff.rfl

@[simp] theorem spec_ensure (body : Prog Act Answer ε α) (last : Prog Act Answer ε Unit) (world : World) :
    (body.ensure last).Spec handle good ok bad world ↔
      body.Spec handle good
        (fun value after => last.Spec handle good (fun _ final => ok value final) bad after)
        (fun error after => last.Spec handle good (fun _ final => bad error final) bad after) world := by
  simp [Prog.ensure]

theorem spec_mono {good' : World → Act → Prop} {ok' : α → World → Prop} {bad' : ε → World → Prop}
    {prog : Prog Act Answer ε α} {world : World}
    (spec : prog.Spec handle good ok bad world)
    (acts : ∀ world action, good world action → good' world action)
    (ends : ∀ value after, ok value after → ok' value after)
    (fails : ∀ error after, bad error after → bad' error after) :
    prog.Spec handle good' ok' bad' world := by
  induction prog generalizing world with
  | done value => exact ends _ _ spec
  | fail error => exact fails _ _ spec
  | act action next ih => exact ⟨acts _ _ spec.1, ih _ spec.2⟩

/-- A property of worlds that every good action keeps holds all along a run. -/
theorem spec_invariant {inv : World → Prop} {prog : Prog Act Answer ε α} {world : World}
    (keeps : ∀ world action, inv world → good world action → inv (handle action world).2)
    (start : inv world) (spec : prog.Spec handle good ok bad world) :
    prog.Spec handle (fun world action => inv world ∧ good world action)
      (fun value after => inv after ∧ ok value after)
      (fun error after => inv after ∧ bad error after) world := by
  induction prog generalizing world with
  | done value => exact ⟨start, spec⟩
  | fail error => exact ⟨start, spec⟩
  | act action next ih => exact ⟨⟨start, spec.1⟩, ih _ (keeps _ _ start spec.1) spec.2⟩

end

end Countinghouse.Program
