import Countinghouse.FileWarrants

/-!
Runs of calls, and what one action does to the names, to the cache and to the open files.
-/

namespace Countinghouse.WarrantedRuns

open HostTree HostEffects FileNamespace BrokerWorld FsBroker BrokerChecks BrokerWarrant FileWarrants
open HostCalls hiding rename link symlink truncate unlink openFile place
open Program (Prog)

/-! Runs of calls. -/
section Runs

variable {b : Broker}

/-- What every permitted step keeps holds all along a run whose steps meet a condition. -/
theorem run_invariant {inv : World → Prop} {condition : World → Op → Prop} {claim : World → Act → Prop}
    (step : ∀ world op, inv world → condition world op →
      (handleOne b op).Spec handle claim (fun _ after => inv after) (fun _ after => inv after) world)
    (ops : List Op) (world : World) (start : inv world)
    (meets : ∀ entry ∈ calls b ops world, condition entry.1 entry.2) :
    (∀ entry ∈ actions b ops world, claim entry.1 entry.2) ∧ inv (runAll b ops world) := by
  induction ops generalizing world with
  | nil => exact ⟨by simp [actions, calls], start⟩
  | cons op rest ih =>
      have first := (Program.spec_iff _ _).mp
        (step world op start (meets (world, op) List.mem_cons_self))
      have next : inv ((handleOne b op).run handle world).2 := by
        cases outcome : (handleOne b op).run handle world with
        | mk reply after =>
            have ended := first.2
            rw [outcome] at ended
            cases reply <;> exact ended
      have later := ih _ next fun entry member => meets entry (List.mem_cons_of_mem _ member)
      refine ⟨?_, later.2⟩
      intro entry member
      simp only [actions, calls, List.flatMap_cons, List.mem_append] at member
      rcases member with early | late
      · exact first.1 entry early
      · exact later.1 entry late

end Runs

/-! What an action does to the names and to the cache. -/
section Effects

/-- The changes to the names that an action makes. -/
def changesOf (world : World) : Act → List Change
  | .call call => (world.outcome call).1.changes
  | .openFile path flags mode => (world.outcome (.openFile path flags mode)).1.changes
  | _ => []

theorem open_host (world : World) (path : Path) (flags : OpenFlags) (mode : Nat) :
    (world.open path flags mode).2.host = world.host.apply (world.outcome (.openFile path flags mode)).1 := by
  unfold World.open
  simp only
  split <;> rfl

theorem open_cache (world : World) (path : Path) (flags : OpenFlags) (mode : Nat) :
    (world.open path flags mode).2.cache = world.cache := by
  unfold World.open
  simp only
  split <;> rfl

theorem on_file_host (world : World) (file : Nat) (act : FdAct) :
    (world.onFile file act).2.host = match world.file file with
      | none => world.host
      | some opened => world.host.apply (world.outcome (.descriptor opened act)).1 := by
  unfold World.onFile
  cases world.file file with
  | none => rfl
  | some opened =>
      simp only
      split <;> rfl

theorem on_file_cache (world : World) (file : Nat) (act : FdAct) :
    (world.onFile file act).2.cache = world.cache := by
  unfold World.onFile
  cases world.file file with
  | none => rfl
  | some opened =>
      simp only
      split <;> rfl

theorem descriptor_outcome_changes (world : World) (file : OpenFile) (act : FdAct) :
    (world.outcome (.descriptor file act)).1.changes = [] := by
  unfold World.outcome
  cases failing : world.chance.fault with
  | some fault => simp only [exec, failing]; rfl
  | none => simp only [exec, failing]; exact descriptor_changes file world.chance.short act

/-- What an action does to the host. -/
def effectOf (world : World) : Act → Effect
  | .call call => (world.outcome call).1
  | .openFile path flags mode => (world.outcome (.openFile path flags mode)).1
  | .onFile key act =>
      match world.file key with
      | some file => (world.outcome (.descriptor file act)).1
      | none => Effect.none
  | _ => Effect.none

theorem handle_host (world : World) (act : Act) :
    (handle act world).2.host = world.host.apply (effectOf world act) := by
  cases act with
  | openFile path flags mode => exact open_host world path flags mode
  | onFile file act =>
      rw [effectOf]
      refine (on_file_host world file act).trans ?_
      cases world.file file <;> rfl
  | reserve bytes entries =>
      simp only [handle]
      split <;> rfl
  | report rule target =>
      simp only [handle, World.report]
      split <;> rfl
  | _ => rfl

theorem effect_changes (world : World) (act : Act) : (effectOf world act).changes = changesOf world act := by
  cases act with
  | onFile file act =>
      rw [effectOf]
      cases world.file file with
      | none => rfl
      | some opened => exact descriptor_outcome_changes world opened act
  | _ => rfl

theorem handle_names (world : World) (act : Act) :
    (handle act world).2.host.names = (changesOf world act).foldl Change.apply world.host.names := by
  rw [handle_host, ← effect_changes]
  rfl

/-- Only `remember` and `clearCache` change the cache. -/
theorem handle_cache (world : World) (act : Act) {entry : Path × CacheHit}
    (member : entry ∈ (handle act world).2.cache) :
    entry ∈ world.cache ∨ act = .remember entry.1 entry.2 := by
  cases act with
  | remember dir hit =>
      rcases mem_remember member with rfl | old
      · exact Or.inr rfl
      · exact Or.inl old
  | clearCache => simp [handle] at member
  | openFile path flags mode => exact Or.inl (open_cache world path flags mode ▸ member)
  | onFile file act => exact Or.inl (on_file_cache world file act ▸ member)
  | reserve bytes entries =>
      simp only [handle] at member
      split at member <;> exact Or.inl member
  | report rule target =>
      simp only [handle, World.report] at member
      split at member <;> exact Or.inl member
  | _ => exact Or.inl member

/-- A file that was open before, where the changes have left it. -/
structure Stays (changes : List Change) (old new : OpenFile) : Prop where
  ino : new.ino = old.ino
  writable : new.writable = old.writable
  location : new.location = changes.foldl relocate old.location

theorem mem_applied_files {world : World} {effect : Effect} {entry : Nat × OpenFile}
    (member : entry ∈ (world.applied effect).files) :
    ∃ old, (entry.1, old) ∈ world.files ∧ Stays effect.changes old entry.2 := by
  obtain ⟨⟨key, old⟩, among, rfl⟩ := List.mem_map.mp member
  exact ⟨old, among, rfl, rfl, rfl⟩

theorem mem_set_file {files : List (Nat × OpenFile)} {key : Nat} {file : OpenFile}
    {entry : Nat × OpenFile} (member : entry ∈ setFile files key file) :
    entry ∈ files ∨ entry = (key, file) := by
  obtain ⟨old, among, same⟩ := List.mem_map.mp member
  split at same
  · exact Or.inr same.symm
  · exact Or.inl (same ▸ among)

theorem on_file_files {world : World} {key : Nat} {act : FdAct} {entry : Nat × OpenFile}
    (member : entry ∈ (world.onFile key act).2.files) :
    ∃ old, (entry.1, old) ∈ world.files ∧ Stays [] old entry.2 := by
  unfold World.onFile at member
  cases found : world.file key with
  | none =>
      rw [found] at member
      exact ⟨entry.2, member, rfl, rfl, rfl⟩
  | some file =>
      have own : (key, file) ∈ world.files := mem_of_lookup found
      have kept : ∀ other ∈ (world.applied (world.outcome (.descriptor file act)).1).passed.files,
          ∃ old, (other.1, old) ∈ world.files ∧ Stays [] old other.2 := by
        intro other among
        have stays := @mem_applied_files world _ _ among
        rwa [descriptor_outcome_changes] at stays
      have updated : ∀ offset, entry ∈ setFile (world.applied (world.outcome (.descriptor file act)).1).passed.files
          key { file with offset := offset } → ∃ old, (entry.1, old) ∈ world.files ∧ Stays [] old entry.2 := by
        intro offset among
        rcases mem_set_file among with old | rfl
        · exact kept entry old
        · exact ⟨file, own, rfl, rfl, rfl⟩
      simp only [found] at member
      split at member
      · exact updated _ member
      · exact updated _ member
      · exact kept entry member

/-- The open files after an action: those there were, and one that was opened. -/
theorem handle_files (world : World) (act : Act) {entry : Nat × OpenFile}
    (member : entry ∈ (handle act world).2.files) :
    (∃ old, (entry.1, old) ∈ world.files ∧ Stays (changesOf world act) old entry.2) ∨
      ∃ path flags mode, act = .openFile path flags mode ∧
        (world.outcome (.openFile path flags mode)).2 = .ok (.opened entry.2) := by
  have same : entry ∈ world.files → ∃ old, (entry.1, old) ∈ world.files ∧ Stays [] old entry.2 :=
    fun among => ⟨entry.2, among, rfl, rfl, rfl⟩
  cases act with
  | call call => exact Or.inl (@mem_applied_files world _ _ member)
  | openFile path flags mode =>
      simp only [handle, World.open] at member
      split at member
      · next file opened =>
          rcases List.mem_append.mp member with old | new
          · exact Or.inl (@mem_applied_files world _ _ old)
          · rw [List.mem_singleton.mp new]
            exact Or.inr ⟨path, flags, mode, rfl, opened⟩
      · exact Or.inl (@mem_applied_files world _ _ member)
      · exact Or.inl (@mem_applied_files world _ _ member)
  | onFile key act => exact Or.inl (on_file_files member)
  | closeFile key => exact Or.inl (same (List.mem_of_mem_filter member))
  | reserve bytes entries =>
      simp only [handle] at member
      split at member <;> exact Or.inl (same member)
  | report rule target =>
      simp only [handle, World.report] at member
      split at member <;> exact Or.inl (same member)
  | _ => exact Or.inl (same member)

end Effects

end Countinghouse.WarrantedRuns
