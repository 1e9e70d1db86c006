import Countinghouse.Obligations

/-!
What a program has done by the time it ends. `Ends` is the weakest precondition of a statement
about the actions of a run, its result and the world it leaves, so that the end of a run can be
told apart by what was done on the way. Nothing here belongs to a particular program.
-/

namespace Countinghouse.ProgramTraces

open Program Obligations

section

variable {Act : Type} {Answer : Act → Type} {World ε α β : Type} {handle : Handler Act Answer World}

theorem run_bind (first : Prog Act Answer ε α) (rest : α → Prog Act Answer ε β) (world : World) :
    (first >>= rest).run handle world =
      match first.run handle world with
      | (.ok value, after) => (rest value).run handle after
      | (.error error, after) => (.error error, after) := by
  change (first.bind rest).run handle world = _
  induction first generalizing world with
  | done value => rfl
  | fail error => rfl
  | act action next ih => exact ih _ _

theorem trace_bind (first : Prog Act Answer ε α) (rest : α → Prog Act Answer ε β) (world : World) :
    (first >>= rest).trace handle world = first.trace handle world ++
      match first.run handle world with
      | (.ok value, after) => (rest value).trace handle after
      | (.error _, _) => [] := by
  change (first.bind rest).trace handle world = _
  induction first generalizing world with
  | done value => rfl
  | fail error => rfl
  | act action next ih => exact congrArg (List.cons _) (ih _ _)

theorem run_catch (body : Prog Act Answer ε α) (handler : ε → Prog Act Answer ε α) (world : World) :
    (tryCatch body handler : Prog Act Answer ε α).run handle world =
      match body.run handle world with
      | (.ok value, after) => (.ok value, after)
      | (.error error, after) => (handler error).run handle after := by
  change (body.recover handler).run handle world = _
  induction body generalizing world with
  | done value => rfl
  | fail error => rfl
  | act action next ih => exact ih _ _

theorem trace_catch (body : Prog Act Answer ε α) (handler : ε → Prog Act Answer ε α) (world : World) :
    (tryCatch body handler : Prog Act Answer ε α).trace handle world = body.trace handle world ++
      match body.run handle world with
      | (.ok _, _) => []
      | (.error error, after) => (handler error).trace handle after := by
  change (body.recover handler).trace handle world = _
  induction body generalizing world with
  | done value => rfl
  | fail error => rfl
  | act action next ih => exact congrArg (List.cons _) (ih _ _)

variable (handle)

/-- The actions of the run, each with the world it was done in, its result and the world after fulfil the claim. -/
def Ends (claim : List (World × Act) → Except ε α → World → Prop) (prog : Prog Act Answer ε α) (world : World) : Prop :=
  claim (prog.trace handle world) (prog.run handle world).1 (prog.run handle world).2

variable {handle} {claim : List (World × Act) → Except ε α → World → Prop} {world : World}

theorem ends_pure {value : α} (holds : claim [] (.ok value) world) :
    Ends handle claim (pure value : Prog Act Answer ε α) world := holds

theorem ends_throw {error : ε} (holds : claim [] (.error error) world) :
    Ends handle claim (throw error : Prog Act Answer ε α) world := holds

theorem ends_mono {other : List (World × Act) → Except ε α → World → Prop} {prog : Prog Act Answer ε α}
    (ends : Ends handle claim prog world) (weaker : ∀ done result after, claim done result after → other done result after) :
    Ends handle other prog world := weaker _ _ _ ends

theorem ends_and {other : List (World × Act) → Except ε α → World → Prop} {prog : Prog Act Answer ε α}
    (first : Ends handle claim prog world) (second : Ends handle other prog world) :
    Ends handle (fun done result after => claim done result after ∧ other done result after) prog world :=
  ⟨first, second⟩

theorem ends_bind {first : Prog Act Answer ε α} {rest : α → Prog Act Answer ε β}
    {claim : List (World × Act) → Except ε β → World → Prop} (middle : List (World × Act) → Except ε α → World → Prop)
    (head : Ends handle middle first world)
    (goes : ∀ done value after, middle done (.ok value) after →
      Ends handle (fun more result final => claim (done ++ more) result final) (rest value) after)
    (stops : ∀ done error after, middle done (.error error) after → claim done (.error error) after) :
    Ends handle claim (first >>= rest) world := by
  simp only [Ends, run_bind, trace_bind] at head goes ⊢
  rcases ran : first.run handle world with ⟨error | value, after⟩
  · rw [ran] at head
    simpa [ran] using stops _ error after head
  · rw [ran] at head
    simpa [ran] using goes _ value after head

theorem ends_catch {body : Prog Act Answer ε α} {handler : ε → Prog Act Answer ε α}
    (middle : List (World × Act) → Except ε α → World → Prop) (head : Ends handle middle body world)
    (goes : ∀ done value after, middle done (.ok value) after → claim done (.ok value) after)
    (caught : ∀ done error after, middle done (.error error) after →
      Ends handle (fun more result final => claim (done ++ more) result final) (handler error) after) :
    Ends handle claim (tryCatch body handler) world := by
  simp only [Ends, run_catch, trace_catch] at head caught ⊢
  rcases ran : body.run handle world with ⟨error | value, after⟩
  · rw [ran] at head
    simpa [ran] using caught _ error after head
  · rw [ran] at head
    simpa [ran] using goes _ value after head

theorem ends_ite {condition : Prop} [Decidable condition] {yes no : Prog Act Answer ε α}
    (first : condition → Ends handle claim yes world) (second : ¬condition → Ends handle claim no world) :
    Ends handle claim (if condition then yes else no) world := by
  split
  · next holds => exact first holds
  · next fails => exact second fails

/-- What a `Spec` says of the end of a run. -/
theorem ends_spec {good : World → Act → Prop} {ok : α → World → Prop} {bad : ε → World → Prop}
    {prog : Prog Act Answer ε α} (spec : prog.Spec handle good ok bad world) :
    Ends handle (fun done result after => (∀ entry ∈ done, good entry.1 entry.2) ∧
      (∀ value, result = .ok value → ok value after) ∧ ∀ error, result = .error error → bad error after) prog world := by
  obtain ⟨actions, ended⟩ := (spec_iff prog world).mp spec
  refine ⟨actions, ?_, ?_⟩
  · intro value isOk
    rcases ran : prog.run handle world with ⟨result, after⟩
    rw [ran] at ended isOk
    cases isOk
    exact ended
  · intro error failed
    rcases ran : prog.run handle world with ⟨result, after⟩
    rw [ran] at ended failed
    cases failed
    exact ended

/-- A program of actions of one kind, each of which keeps a relation. -/
theorem ends_only {kind : Act → Prop} {keeps : World → World → Prop} (refl : ∀ world, keeps world world)
    (trans : ∀ {a b c}, keeps a b → keeps b c → keeps a c)
    (acts : ∀ world action, kind action → keeps world (handle action world).2) {prog : Prog Act Answer ε α}
    (only : Only kind prog) :
    Ends handle (fun done _ after => (∀ entry ∈ done, kind entry.2) ∧ keeps world after) prog world := by
  induction prog generalizing world with
  | done value => exact ⟨fun _ member => absurd member List.not_mem_nil, refl world⟩
  | fail error => exact ⟨fun _ member => absurd member List.not_mem_nil, refl world⟩
  | act action next ih =>
      obtain ⟨kinds, kept⟩ := ih (handle action world).1 (only.2 _)
      refine ⟨?_, trans (acts world action only.1) kept⟩
      intro entry member
      rcases List.mem_cons.mp member with first | later
      · exact first ▸ only.1
      · exact kinds entry later

end

end Countinghouse.ProgramTraces
