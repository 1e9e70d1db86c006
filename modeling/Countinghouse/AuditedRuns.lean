import Mathlib

/-!
Runs that note what they do and may be refused. One text of a program is run strictly, where a
violation is noted and ends the run, or under audit, where it is noted only. Nothing here belongs to a
particular program.
-/

namespace Countinghouse.AuditedRuns

/-- What a run has noted, and how it ends. -/
structure Run (ρ ε α : Type) where
  notes : List ρ
  result : Except ε α

namespace Run

variable {ρ ε α β : Type}

def bind (first : Run ρ ε α) (next : α → Run ρ ε β) : Run ρ ε β :=
  match first.result with
  | .error e => ⟨first.notes, .error e⟩
  | .ok a => ⟨first.notes ++ (next a).notes, (next a).result⟩

instance : Monad (Run ρ ε) where
  pure a := ⟨[], .ok a⟩
  bind := bind

def fail (e : ε) : Run ρ ε α := ⟨[], .error e⟩

def note (r : ρ) : Run ρ ε Unit := ⟨[r], .ok ()⟩

/-- Noted, and in a strict run the end. -/
def violate (strict : Bool) (r : ρ) (e : ε) : Run ρ ε Unit := ⟨[r], if strict then .error e else .ok ()⟩

/-- Only on a condition. -/
def onlyIf (condition : Bool) (run : Run ρ ε Unit) : Run ρ ε Unit := if condition then run else pure ()

/-- `finally`: noted however the run ends. -/
def lastly (run : Run ρ ε α) (r : ρ) : Run ρ ε α := ⟨run.notes ++ [r], run.result⟩

@[simp] theorem pure_notes (a : α) : (pure a : Run ρ ε α).notes = [] := rfl
@[simp] theorem pure_result (a : α) : (pure a : Run ρ ε α).result = .ok a := rfl
@[simp] theorem fail_notes (e : ε) : (fail e : Run ρ ε α).notes = [] := rfl
@[simp] theorem fail_result (e : ε) : (fail e : Run ρ ε α).result = .error e := rfl
@[simp] theorem note_notes (r : ρ) : (note r : Run ρ ε Unit).notes = [r] := rfl
@[simp] theorem note_result (r : ρ) : (note r : Run ρ ε Unit).result = .ok () := rfl
@[simp] theorem violate_notes (strict : Bool) (r : ρ) (e : ε) : (violate strict r e).notes = [r] := rfl
@[simp] theorem lastly_notes (run : Run ρ ε α) (r : ρ) : (run.lastly r).notes = run.notes ++ [r] := rfl
@[simp] theorem lastly_result (run : Run ρ ε α) (r : ρ) : (run.lastly r).result = run.result := rfl

theorem bind_of_ok {first : Run ρ ε α} {a : α} (ends : first.result = .ok a) (next : α → Run ρ ε β) :
    first >>= next = ⟨first.notes ++ (next a).notes, (next a).result⟩ := by
  show bind first next = _
  simp only [bind, ends]

theorem bind_of_error {first : Run ρ ε α} {e : ε} (ends : first.result = .error e) (next : α → Run ρ ε β) :
    first >>= next = ⟨first.notes, .error e⟩ := by
  show bind first next = _
  simp only [bind, ends]

theorem bind_result {first : Run ρ ε α} {next : α → Run ρ ε β} {b : β} :
    (first >>= next).result = .ok b ↔ ∃ a, first.result = .ok a ∧ (next a).result = .ok b := by
  cases ends : first.result with
  | error e => simp [bind_of_error ends]
  | ok a => simp [bind_of_ok ends]

/-- What a run in two parts has noted comes from one of them. -/
theorem mem_bind {first : Run ρ ε α} {next : α → Run ρ ε β} {r : ρ} (noted : r ∈ (first >>= next).notes) :
    r ∈ first.notes ∨ ∃ a, first.result = .ok a ∧ r ∈ (next a).notes := by
  cases ends : first.result with
  | error e =>
      rw [bind_of_error ends] at noted
      exact .inl noted
  | ok a =>
      rw [bind_of_ok ends] at noted
      rcases List.mem_append.1 noted with inFirst | inNext
      · exact .inl inFirst
      · exact .inr ⟨a, rfl, inNext⟩

end Run

open Run

/-! What is noted. -/
section Notes

variable {ρ ε α β : Type} {good : ρ → Prop}

/-- Everything that the run notes is good. -/
def Notes (good : ρ → Prop) (run : Run ρ ε α) : Prop := ∀ r ∈ run.notes, good r

theorem notes_pure (a : α) : Notes good (pure a : Run ρ ε α) := by simp [Notes]

theorem notes_fail (e : ε) : Notes good (fail e : Run ρ ε α) := by simp [Notes]

theorem notes_note {r : ρ} (holds : good r) : Notes good (note r : Run ρ ε Unit) := by simpa [Notes] using holds

theorem notes_violate {strict : Bool} {r : ρ} {e : ε} (holds : good r) : Notes good (violate strict r e) := by
  simpa [Notes] using holds

theorem notes_only_if {condition : Bool} {run : Run ρ ε Unit} (body : condition = true → Notes good run) :
    Notes good (onlyIf condition run) := by
  cases condition with
  | false => exact notes_pure ()
  | true => exact body rfl

theorem notes_bind {first : Run ρ ε α} {next : α → Run ρ ε β} (head : Notes good first)
    (rest : ∀ a, first.result = .ok a → Notes good (next a)) : Notes good (first >>= next) := by
  intro r noted
  rcases mem_bind noted with inFirst | ⟨a, ends, inNext⟩
  · exact head r inFirst
  · exact rest a ends r inNext

theorem notes_lastly {run : Run ρ ε α} {r : ρ} (body : Notes good run) (holds : good r) : Notes good (run.lastly r) := by
  intro other noted
  rcases List.mem_append.1 noted with inBody | last
  · exact body other inBody
  · exact (List.mem_singleton.1 last) ▸ holds

end Notes

end Countinghouse.AuditedRuns
