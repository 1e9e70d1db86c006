import Mathlib.Data.List.Nodup
import Mathlib.Logic.Relation

/-!
A depth-first search that marks what it has seen. An edge leads to a further key or is
reported. Nothing here belongs to a particular program.
-/

namespace Countinghouse.MarkedSearch

universe u v
variable {Key : Type u} {Report : Type v}

inductive Edge (Key : Type u) (Report : Type v) where
  | report (text : Report)
  | enter (key : Key)

structure Work (Key : Type u) (Report : Type v) where
  seen : List Key
  reports : List Report

def Work.mark (work : Work Key Report) (key : Key) : Work Key Report := { work with seen := key :: work.seen }

def Work.push (work : Work Key Report) (text : Report) : Work Key Report :=
  { work with reports := work.reports ++ [text] }

def follow (visit : Key → Work Key Report → Option (Work Key Report)) (edge : Edge Key Report)
    (work : Work Key Report) : Option (Work Key Report) :=
  match edge with
  | .report text => some (work.push text)
  | .enter key => visit key work

def scan (visit : Key → Work Key Report → Option (Work Key Report)) :
    List (Edge Key Report) → Work Key Report → Option (Work Key Report)
  | [], work => some work
  | edge :: rest, work => (follow visit edge work).bind (scan visit rest)

/-- The search from a key, for as many calls inside one another as there is fuel. -/
def visit [DecidableEq Key] (edges : Key → List (Edge Key Report)) :
    Nat → Key → Work Key Report → Option (Work Key Report)
  | 0, _, _ => none
  | fuel + 1, key, work =>
      if key ∈ work.seen then some work else scan (visit edges fuel) (edges key) (work.mark key)

/-- An edge from one key to another. -/
def Leads (edges : Key → List (Edge Key Report)) (key next : Key) : Prop := .enter next ∈ edges key

/-! What a search leaves. -/
section Growing

/-- Marks and reports are only added. -/
structure Grows (before after : Work Key Report) : Prop where
  seen : before.seen ⊆ after.seen
  reports : before.reports <+: after.reports

theorem grows_refl (work : Work Key Report) : Grows work work := ⟨List.Subset.refl _, List.prefix_refl _⟩

theorem Grows.trans {first second third : Work Key Report} (one : Grows first second) (two : Grows second third) :
    Grows first third :=
  ⟨List.Subset.trans one.seen two.seen, one.reports.trans two.reports⟩

theorem grows_mark (work : Work Key Report) (key : Key) : Grows work (work.mark key) :=
  ⟨List.subset_cons_self _ _, List.prefix_refl _⟩

theorem grows_push (work : Work Key Report) (text : Report) : Grows work (work.push text) :=
  ⟨List.Subset.refl _, List.prefix_append _ _⟩

theorem Grows.silent {before after : Work Key Report} (grows : Grows before after) (none : after.reports = []) :
    before.reports = [] :=
  List.prefix_nil.mp (none ▸ grows.reports)

variable {visitor : Key → Work Key Report → Option (Work Key Report)}

theorem scan_grows (visits : ∀ key work after, visitor key work = some after → Grows work after) :
    ∀ (list : List (Edge Key Report)) (work after : Work Key Report), scan visitor list work = some after →
      Grows work after := by
  intro list
  induction list with
  | nil =>
      intro work after same
      cases same
      exact grows_refl work
  | cons edge rest ih =>
      intro work after run
      obtain ⟨middle, first, later⟩ := Option.bind_eq_some_iff.mp run
      refine Grows.trans ?_ (ih middle after later)
      cases edge with
      | report text =>
          cases first
          exact grows_push work text
      | enter key => exact visits key work middle first

variable [DecidableEq Key] {edges : Key → List (Edge Key Report)}

theorem visit_grows (fuel : Nat) : ∀ (key : Key) (work after : Work Key Report),
    visit edges fuel key work = some after → Grows work after ∧ key ∈ after.seen := by
  induction fuel with
  | zero => intro key work after run; cases run
  | succ fuel ih =>
      intro key work after run
      unfold visit at run
      split at run
      · rename_i known
        cases run
        exact ⟨grows_refl work, known⟩
      · have grows := scan_grows (fun key work after run => (ih key work after run).1) _ _ _ run
        exact ⟨(grows_mark work key).trans grows, grows.seen List.mem_cons_self⟩

end Growing

/-! A search that reports nothing has followed every edge of what it marked. -/
section Closing

variable {edges : Key → List (Edge Key Report)}

/-- Every edge of the key leads to a marked key. -/
def Closed (edges : Key → List (Edge Key Report)) (work : Work Key Report) (key : Key) : Prop :=
  ∀ edge ∈ edges key, ∃ next ∈ work.seen, edge = .enter next

theorem Closed.grow {before after : Work Key Report} {key : Key} (closed : Closed edges before key)
    (grows : Grows before after) : Closed edges after key := by
  intro edge member
  obtain ⟨next, isSeen, same⟩ := closed edge member
  exact ⟨next, grows.seen isSeen, same⟩

variable [DecidableEq Key]

theorem scan_closed {fuel : Nat}
    (visits : ∀ (key : Key) (work after : Work Key Report), visit edges fuel key work = some after → after.reports = [] →
      ∀ other ∈ after.seen, other ∈ work.seen ∨ Closed edges after other) :
    ∀ (list : List (Edge Key Report)) (work after : Work Key Report), scan (visit edges fuel) list work = some after →
      after.reports = [] →
      (∀ edge ∈ list, ∃ next ∈ after.seen, edge = .enter next) ∧
        ∀ other ∈ after.seen, other ∈ work.seen ∨ Closed edges after other := by
  intro list
  -- the edges are followed in order; what a later one marks does not matter to an earlier one
  induction list with
  | nil =>
      intro work after same silent
      cases same
      exact ⟨by simp, fun other member => .inl member⟩
  | cons edge rest ih =>
      intro work after run silent
      obtain ⟨middle, first, later⟩ := Option.bind_eq_some_iff.mp run
      have grows := scan_grows (fun key work after run => (visit_grows fuel key work after run).1) _ _ _ later
      obtain ⟨followed, marked⟩ := ih middle after later silent
      cases edge with
      | report text =>
          cases first
          exact absurd (grows.silent silent) (by simp [Work.push])
      | enter key =>
          refine ⟨?_, ?_⟩
          · rintro edge (_ | ⟨_, member⟩)
            · exact ⟨key, grows.seen (visit_grows fuel key work middle first).2, rfl⟩
            · exact followed edge member
          · intro other member
            rcases marked other member with before | closed
            · rcases visits key work middle first (grows.silent silent) other before with known | closed
              · exact .inl known
              · exact .inr (closed.grow grows)
            · exact .inr closed

theorem visit_closed (fuel : Nat) : ∀ (key : Key) (work after : Work Key Report),
    visit edges fuel key work = some after → after.reports = [] →
      ∀ other ∈ after.seen, other ∈ work.seen ∨ Closed edges after other := by
  induction fuel with
  | zero => intro key work after run; cases run
  | succ fuel ih =>
      intro key work after run silent other member
      unfold visit at run
      split at run
      · cases run
        exact .inl member
      · obtain ⟨followed, marked⟩ := scan_closed ih _ _ _ run silent
        rcases marked other member with known | closed
        · rcases List.mem_cons.mp known with rfl | before
          · exact .inr followed
          · exact .inl before
        · exact .inr closed

/-- From an empty work, all that can be reached is marked, and none of it has a reported edge. -/
theorem search_closed {fuel : Nat} {key : Key} {after : Work Key Report}
    (run : visit edges fuel key ⟨[], []⟩ = some after) (silent : after.reports = []) {other : Key}
    (reached : Relation.ReflTransGen (Leads edges) key other) : other ∈ after.seen ∧ Closed edges after other := by
  have closed : ∀ other ∈ after.seen, Closed edges after other := by
    intro other member
    rcases visit_closed fuel key _ after run silent other member with never | closed
    · cases never
    · exact closed
  have marked : other ∈ after.seen := by
    induction reached with
    | refl => exact (visit_grows fuel key _ after run).2
    | tail _ leads ih =>
        obtain ⟨next, isSeen, same⟩ := closed _ ih _ leads
        cases same
        exact isSeen
  exact ⟨marked, closed other marked⟩

end Closing

/-! A search in which no edge is reported. -/
section Silence

variable [DecidableEq Key] {edges : Key → List (Edge Key Report)}

/-- No edge of what can be reached is reported. -/
def Quiet (edges : Key → List (Edge Key Report)) (key : Key) : Prop :=
  ∀ other, Relation.ReflTransGen (Leads edges) key other → ∀ text, .report text ∉ edges other

theorem visit_quiet (fuel : Nat) : ∀ (key : Key) (work after : Work Key Report), Quiet edges key →
    visit edges fuel key work = some after → after.reports = work.reports := by
  induction fuel with
  | zero => intro key work after quiet run; cases run
  | succ fuel ih =>
      have scans : ∀ (list : List (Edge Key Report)) (work after : Work Key Report),
          (∀ edge ∈ list, ∃ next, edge = .enter next ∧ Quiet edges next) →
          scan (visit edges fuel) list work = some after → after.reports = work.reports := by
        intro list
        induction list with
        | nil => intro work after _ same; cases same; rfl
        | cons edge rest inner =>
            intro work after all run
            obtain ⟨middle, first, later⟩ := Option.bind_eq_some_iff.mp run
            obtain ⟨next, rfl, quiet⟩ := all edge List.mem_cons_self
            rw [inner middle after (fun edge member => all edge (List.mem_cons_of_mem _ member)) later]
            exact ih next work middle quiet first
      intro key work after quiet run
      unfold visit at run
      split at run
      · cases run
        rfl
      · have all : ∀ edge ∈ edges key, ∃ next, edge = .enter next ∧ Quiet edges next := by
          intro edge member
          cases edge with
          | report text => exact absurd member (quiet key .refl text)
          | enter next => exact ⟨next, rfl, fun other reached => quiet other (.head member reached)⟩
        exact scans (edges key) (work.mark key) after all run

end Silence

/-! A search among finitely many keys ends. -/
section Ending

variable [DecidableEq Key] {edges : Key → List (Edge Key Report)} {keys : List Key}

/-- The keys that are not marked yet. -/
def unseen (keys : List Key) (work : Work Key Report) : Nat := (keys.filter fun key => key ∉ work.seen).length

theorem unseen_grows {before after : Work Key Report} (grows : Grows before after) :
    unseen keys after ≤ unseen keys before := by
  refine (List.monotone_filter_right keys ?_).length_le
  intro key fresh
  simp only [decide_eq_true_eq] at fresh ⊢
  exact fun known => fresh (grows.seen known)

theorem unseen_mark {work : Work Key Report} {key : Key} (member : key ∈ keys) (fresh : key ∉ work.seen) :
    unseen keys (work.mark key) < unseen keys work := by
  have split : (keys.filter fun other => other ∉ (work.mark key).seen) =
      (keys.filter fun other => other ∉ work.seen).filter fun other => other ≠ key := by
    rw [List.filter_filter]
    refine List.filter_congr fun other _ => ?_
    simp [Work.mark]
  unfold unseen
  rw [split]
  refine List.length_filter_lt_length_iff_exists.mpr ⟨key, ?_, by simp⟩
  simp [member, fresh]

theorem visit_ends (inside : ∀ key ∈ keys, ∀ next, Leads edges key next → next ∈ keys) (fuel : Nat) :
    ∀ (key : Key) (work : Work Key Report), key ∈ keys → unseen keys work < fuel →
      ∃ after, visit edges fuel key work = some after := by
  induction fuel with
  | zero => intro key work _ few; exact absurd few (Nat.not_lt_zero _)
  | succ fuel ih =>
      -- the inner induction is on the edges that are left, with the fuel of the outer one
      have scans : ∀ (list : List (Edge Key Report)) (work : Work Key Report),
          (∀ next, .enter next ∈ list → next ∈ keys) → unseen keys work < fuel →
          ∃ after, scan (visit edges fuel) list work = some after := by
        intro list
        induction list with
        | nil => intro work _ _; exact ⟨work, rfl⟩
        | cons edge rest inner =>
            intro work all few
            have first : ∃ middle, follow (visit edges fuel) edge work = some middle ∧ Grows work middle := by
              cases edge with
              | report text => exact ⟨_, rfl, grows_push work text⟩
              | enter next =>
                  obtain ⟨middle, run⟩ := ih next work (all next List.mem_cons_self) few
                  exact ⟨middle, run, (visit_grows fuel next work middle run).1⟩
            obtain ⟨middle, run, grows⟩ := first
            obtain ⟨after, later⟩ := inner middle (fun next member => all next (List.mem_cons_of_mem _ member))
              (Nat.lt_of_le_of_lt (unseen_grows grows) few)
            exact ⟨after, Option.bind_eq_some_iff.mpr ⟨middle, run, later⟩⟩
      intro key work member few
      unfold visit
      split
      · exact ⟨work, rfl⟩
      · rename_i fresh
        have fewer := unseen_mark member fresh
        exact scans _ _ (fun next leads => inside key member next leads) (by omega)

end Ending

end Countinghouse.MarkedSearch
