import Mathlib.Data.List.Basic

/-!
A queue that is worked off from the front. An item may stand for a key, and the first item of a
key puts what the key expands to at the end of the queue. Nothing here belongs to a particular
program.
-/

namespace Countinghouse.WorkQueue

universe u v
variable {Item : Type u} {Key : Type v} [DecidableEq Key]

/-- The queue behind a front item, and the keys seen then. -/
def queueAfter (key : Item → Option Key) (expand : Key → List Item) (item : Item) (queue : List Item) (seen : List Key) :
    List Item × List Key :=
  match key item with
  | none => (queue, seen)
  | some k => if k ∈ seen then (queue, seen) else (queue ++ expand k, k :: seen)

/-- The items in the order in which they leave the queue, if there is fuel for all of them. -/
def popped (key : Item → Option Key) (expand : Key → List Item) : Nat → List Item → List Key → Option (List Item)
  | _, [], _ => some []
  | 0, _ :: _, _ => none
  | fuel + 1, item :: queue, seen =>
      let after := queueAfter key expand item queue seen
      (popped key expand fuel after.1 after.2).map (item :: ·)

/-- What gets into the queue. -/
inductive Reached (key : Item → Option Key) (expand : Key → List Item) (start : List Item) : Item → Prop where
  | start {item : Item} (mem : item ∈ start) : Reached key expand start item
  | expand {item next : Item} {k : Key} (reached : Reached key expand start item) (isKey : key item = some k)
      (mem : next ∈ expand k) : Reached key expand start next

variable {key : Item → Option Key} {expand : Key → List Item}

theorem popped_nil (fuel : Nat) (seen : List Key) : popped key expand fuel [] seen = some [] := by
  cases fuel <;> rfl

theorem popped_cons (fuel : Nat) (item : Item) (queue : List Item) (seen : List Key) :
    popped key expand (fuel + 1) (item :: queue) seen =
      (popped key expand fuel (queueAfter key expand item queue seen).1
        (queueAfter key expand item queue seen).2).map (item :: ·) := rfl

theorem mem_queueAfter {item next : Item} {queue : List Item} {seen : List Key} :
    next ∈ (queueAfter key expand item queue seen).1 ↔
      next ∈ queue ∨ ∃ k, key item = some k ∧ k ∉ seen ∧ next ∈ expand k := by
  unfold queueAfter
  cases key item with
  | none => simp
  | some own => by_cases isSeen : own ∈ seen <;> simp [isSeen]

theorem mem_seenAfter {item : Item} {k : Key} {queue : List Item} {seen : List Key} :
    k ∈ (queueAfter key expand item queue seen).2 ↔ k ∈ seen ∨ key item = some k := by
  unfold queueAfter
  cases key item with
  | none => simp
  | some own =>
      by_cases isSeen : own ∈ seen
      · simp only [isSeen, if_true, Option.some.injEq, iff_self_or]
        rintro rfl
        exact isSeen
      · simp only [isSeen, if_false, List.mem_cons, Option.some.injEq]
        rw [or_comm, eq_comm]

/-! Enough fuel. -/
section Fuel

/-- The items that the keys not yet seen can still bring. -/
def cost (expand : Key → List Item) (seen : List Key) : List Key → Nat
  | [] => 0
  | k :: keys => (if k ∈ seen then 0 else (expand k).length) + cost expand seen keys

theorem cost_mark_le (expand : Key → List Item) (k : Key) (seen keys : List Key) : cost expand (k :: seen) keys ≤ cost expand seen keys := by
  induction keys with
  | nil => exact Nat.le_refl _
  | cons other keys ih =>
      simp only [cost, List.mem_cons]
      by_cases isSeen : other ∈ seen <;> by_cases same : other = k <;> simp [isSeen, same] <;> omega

theorem cost_mark (expand : Key → List Item) {k : Key} {seen keys : List Key} (mem : k ∈ keys) (unseen : k ∉ seen) :
    (expand k).length + cost expand (k :: seen) keys ≤ cost expand seen keys := by
  induction keys with
  | nil => cases mem
  | cons other keys ih =>
      simp only [cost]
      by_cases same : other = k
      · subst same
        have fewer := cost_mark_le expand other seen keys
        simp [unseen]
        omega
      · have later := ih ((List.mem_cons.mp mem).resolve_left (Ne.symm same))
        by_cases isSeen : other ∈ seen <;> simp [isSeen, same] <;> omega

theorem popped_total {keys : List Key} (among : ∀ item k, key item = some k → k ∈ keys) {fuel : Nat} {queue : List Item}
    {seen : List Key} (enough : queue.length + cost expand seen keys ≤ fuel) :
    ∃ items, popped key expand fuel queue seen = some items := by
  induction fuel generalizing queue seen with
  | zero =>
      cases queue with
      | nil => exact ⟨[], popped_nil _ _⟩
      | cons item queue => simp at enough
  | succ fuel ih =>
      cases queue with
      | nil => exact ⟨[], popped_nil _ _⟩
      | cons item queue =>
          have fewer : (queueAfter key expand item queue seen).1.length +
              cost expand (queueAfter key expand item queue seen).2 keys ≤ fuel := by
            rw [List.length_cons] at enough
            unfold queueAfter
            cases isKey : key item with
            | none =>
                simp only
                omega
            | some k =>
                by_cases isSeen : k ∈ seen
                · simp only [isSeen, if_true]
                  omega
                · have less := cost_mark expand (among item k isKey) isSeen
                  simp only [isSeen, if_false, List.length_append]
                  omega
          obtain ⟨items, done⟩ := ih fewer
          exact ⟨item :: items, by rw [popped_cons, done, Option.map_some]⟩

theorem popped_more {fuel more : Nat} (le : fuel ≤ more) {queue items : List Item} {seen : List Key}
    (done : popped key expand fuel queue seen = some items) : popped key expand more queue seen = some items := by
  induction fuel generalizing more queue seen items with
  | zero =>
      cases queue with
      | nil => rwa [popped_nil] at done ⊢
      | cons item queue => simp [popped] at done
  | succ fuel ih =>
      obtain ⟨more, rfl⟩ : ∃ rest, more = rest + 1 := ⟨more - 1, by omega⟩
      cases queue with
      | nil => rwa [popped_nil] at done ⊢
      | cons item queue =>
          rw [popped_cons, Option.map_eq_some_iff] at done
          obtain ⟨rest, isRest, rfl⟩ := done
          rw [popped_cons, ih (by omega) isRest, Option.map_some]

end Fuel

/-! What leaves the queue. -/
section Popped

theorem popped_reached {start : List Item} {fuel : Nat} {queue items : List Item} {seen : List Key}
    (done : popped key expand fuel queue seen = some items) (reached : ∀ item ∈ queue, Reached key expand start item) :
    ∀ item ∈ items, Reached key expand start item := by
  induction fuel generalizing queue seen items with
  | zero =>
      cases queue with
      | nil =>
          rw [popped_nil] at done
          cases done
          simp
      | cons item queue => simp [popped] at done
  | succ fuel ih =>
      cases queue with
      | nil =>
          rw [popped_nil] at done
          cases done
          simp
      | cons item queue =>
          rw [popped_cons, Option.map_eq_some_iff] at done
          obtain ⟨rest, isRest, rfl⟩ := done
          have here := reached item (by simp)
          have later : ∀ other ∈ (queueAfter key expand item queue seen).1, Reached key expand start other := by
            intro other mem
            rcases mem_queueAfter.mp mem with old | ⟨k, isKey, _, brought⟩
            · exact reached other (List.mem_cons_of_mem item old)
            · exact Reached.expand here isKey brought
          intro other mem
          rcases List.mem_cons.mp mem with rfl | mem
          · exact here
          · exact ih isRest later other mem

/-- Everything in the queue leaves it, and so does what a key not seen before expands to. -/
theorem popped_closed {fuel : Nat} {queue items : List Item} {seen : List Key}
    (done : popped key expand fuel queue seen = some items) :
    queue ⊆ items ∧ ∀ item ∈ items, ∀ k, key item = some k → k ∉ seen → expand k ⊆ items := by
  induction fuel generalizing queue seen items with
  | zero =>
      cases queue with
      | nil =>
          rw [popped_nil] at done
          cases done
          simp
      | cons item queue => simp [popped] at done
  | succ fuel ih =>
      cases queue with
      | nil =>
          rw [popped_nil] at done
          cases done
          simp
      | cons item queue =>
          rw [popped_cons, Option.map_eq_some_iff] at done
          obtain ⟨rest, isRest, rfl⟩ := done
          obtain ⟨queued, expanded⟩ := ih isRest
          constructor
          · refine List.cons_subset_cons item fun other mem => queued ?_
            exact mem_queueAfter.mpr (Or.inl mem)
          · intro other mem k isKey unseen next brought
            apply List.mem_cons_of_mem
            -- the key is seen at the front item, or at a later one
            by_cases first : key item = some k
            · exact queued (mem_queueAfter.mpr (Or.inr ⟨k, first, unseen, brought⟩))
            · have isRest : other ∈ rest := by
                refine (List.mem_cons.mp mem).resolve_left ?_
                rintro rfl
                exact first isKey
              have still : k ∉ (queueAfter key expand item queue seen).2 := by
                rw [mem_seenAfter, not_or]
                exact ⟨unseen, first⟩
              exact expanded other isRest k isKey still brought

/-- What leaves the queue is what is reached, when nothing has been seen before. -/
theorem mem_popped {fuel : Nat} {start items : List Item} (done : popped key expand fuel start [] = some items) (item : Item) :
    item ∈ items ↔ Reached key expand start item := by
  obtain ⟨queued, expanded⟩ := popped_closed done
  constructor
  · exact popped_reached done (fun _ mem => Reached.start mem) item
  · intro reached
    induction reached with
    | start mem => exact queued mem
    | expand _ isKey mem ih => exact expanded _ ih _ isKey (by simp) mem

end Popped

end Countinghouse.WorkQueue
