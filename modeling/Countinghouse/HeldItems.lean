import Mathlib

/-!
Lists that holders add to and take back from: whoever takes items gets a ticket, and giving a
ticket back removes its items again, each at its last place in the list. Tickets may be given
back in any order.
-/

namespace Countinghouse.HeldItems

variable {Kind Item : Type} [DecidableEq Kind] [DecidableEq Item]

structure Ticket (Kind Item : Type) where
  kind : Kind
  items : List Item
  deriving DecidableEq

/-- The lists, one of each kind, and the tickets in the order in which they were given out. -/
structure Lists (Kind Item : Type) where
  list : Kind → List Item
  tickets : List (Ticket Kind Item)

inductive Move (Kind Item : Type) where
  | take (ticket : Ticket Kind Item)
  | giveBack (n : Nat)
  deriving DecidableEq

def fresh : Lists Kind Item := ⟨fun _ => [], []⟩

def eraseLast (list : List Item) (item : Item) : List Item := (list.reverse.erase item).reverse

def eraseAll (list items : List Item) : List Item := items.foldl eraseLast list

def move (l : Lists Kind Item) : Move Kind Item → Lists Kind Item
  | .take ticket =>
      { list := Function.update l.list ticket.kind (l.list ticket.kind ++ ticket.items)
        tickets := l.tickets ++ [ticket] }
  | .giveBack n =>
      match l.tickets[n]? with
      | none => l
      | some ticket =>
          { l with list := Function.update l.list ticket.kind (eraseAll (l.list ticket.kind) ticket.items) }

def moveAll (moves : List (Move Kind Item)) : Lists Kind Item := moves.foldl move fresh

def taken (moves : List (Move Kind Item)) : List (Ticket Kind Item) :=
  moves.filterMap fun
    | .take ticket => some ticket
    | .giveBack _ => none

/-- A ticket is given back once, and after it was given out. -/
inductive Orderly : List (Move Kind Item) → Prop where
  | nil : Orderly []
  | take (before : List (Move Kind Item)) (ticket : Ticket Kind Item) (orderly : Orderly before) :
      Orderly (before ++ [.take ticket])
  | giveBack (before : List (Move Kind Item)) (n : Nat) (orderly : Orderly before) (given : n < (taken before).length)
      (held : .giveBack n ∉ before) : Orderly (before ++ [.giveBack n])

/-- The ticket of a number is out. -/
def Out (moves : List (Move Kind Item)) (n : Nat) (ticket : Ticket Kind Item) : Prop :=
  (taken moves)[n]? = some ticket ∧ .giveBack n ∉ moves

/-! The tickets. -/

omit [DecidableEq Kind] [DecidableEq Item] in
theorem taken_take (before : List (Move Kind Item)) (ticket : Ticket Kind Item) :
    taken (before ++ [.take ticket]) = taken before ++ [ticket] := by
  simp [taken]

omit [DecidableEq Kind] [DecidableEq Item] in
theorem taken_give_back (before : List (Move Kind Item)) (n : Nat) :
    taken (before ++ [.giveBack n]) = taken before := by
  simp [taken]

theorem move_all_snoc (before : List (Move Kind Item)) (m : Move Kind Item) :
    moveAll (before ++ [m]) = move (moveAll before) m := by
  simp [moveAll]

theorem tickets_taken (moves : List (Move Kind Item)) : (moveAll moves).tickets = taken moves := by
  induction moves using List.reverseRecOn with
  | nil => rfl
  | append_singleton before m ih =>
      rw [move_all_snoc]
      cases m with
      | take ticket => rw [taken_take, ← ih, move]
      | giveBack n =>
          rw [taken_give_back, ← ih, move]
          split <;> rfl

omit [DecidableEq Kind] [DecidableEq Item] in
theorem orderly_bound {moves : List (Move Kind Item)} (orderly : Orderly moves) {n : Nat}
    (given : .giveBack n ∈ moves) : n < (taken moves).length := by
  induction orderly with
  | nil => cases given
  | take before ticket _ ih =>
      rw [taken_take, List.length_append]
      rcases List.mem_append.1 given with earlier | last
      · exact Nat.lt_add_right _ (ih earlier)
      · cases List.mem_singleton.1 last
  | giveBack before m _ isTicket _ ih =>
      rw [taken_give_back]
      rcases List.mem_append.1 given with earlier | last
      · exact ih earlier
      · cases List.mem_singleton.1 last
        exact isTicket

omit [DecidableEq Kind] [DecidableEq Item] in
/-- The beginning of an orderly run is one. -/
theorem orderly_front {first later : List (Move Kind Item)} (orderly : Orderly (first ++ later)) : Orderly first := by
  induction later using List.reverseRecOn with
  | nil => rwa [List.append_nil] at orderly
  | append_singleton rest m ih =>
      rw [← List.append_assoc] at orderly
      generalize whole : first ++ rest ++ [m] = moves at orderly
      apply ih
      cases orderly with
      | nil => simp at whole
      | take before ticket orderly =>
          obtain ⟨rfl, -⟩ := List.append_inj' whole rfl
          exact orderly
      | giveBack before n orderly given held =>
          obtain ⟨rfl, -⟩ := List.append_inj' whole rfl
          exact orderly

/-! How often an item is in a list. -/

omit [DecidableEq Kind] in
theorem count_erase_last (list : List Item) (item other : Item) :
    (eraseLast list item).count other = list.count other - if item = other then 1 else 0 := by
  by_cases same : item = other
  · subst same
    simp [eraseLast, List.count_erase_self]
  · simp [eraseLast, List.count_erase_of_ne (Ne.symm same), same]

omit [DecidableEq Kind] in
theorem count_erase_all (list items : List Item) (item : Item) :
    (eraseAll list items).count item = list.count item - items.count item := by
  induction items generalizing list with
  | nil => simp [eraseAll]
  | cons first rest ih =>
      have later := ih (eraseLast list first)
      simp only [eraseAll, List.foldl_cons] at later ⊢
      rw [later, count_erase_last, List.count_cons]
      by_cases same : first = item
      · subst same
        simp only [if_true, beq_self_eq_true]
        omega
      · simp [same]

/-- What a ticket adds to the count of an item in a list. -/
def share (tickets : List (Ticket Kind Item)) (kind : Kind) (item : Item) (n : Nat) : Nat :=
  match tickets[n]? with
  | none => 0
  | some ticket => if ticket.kind = kind then ticket.items.count item else 0

/-- The numbers of the tickets that are out. -/
def outstanding (moves : List (Move Kind Item)) : Finset Nat :=
  (Finset.range (taken moves).length).filter fun n => .giveBack n ∉ moves

theorem outstanding_take {before : List (Move Kind Item)} (orderly : Orderly before) (ticket : Ticket Kind Item) :
    outstanding (before ++ [.take ticket]) = insert (taken before).length (outstanding before) := by
  have new : .giveBack (taken before).length ∉ before := fun given => lt_irrefl _ (orderly_bound orderly given)
  ext n
  simp only [outstanding, taken_take, List.length_append, List.length_singleton, Finset.mem_filter, Finset.mem_range,
    Finset.mem_insert, List.mem_append, List.mem_singleton, reduceCtorEq, or_false]
  constructor
  · rintro ⟨within, held⟩
    rcases Nat.lt_succ_iff_lt_or_eq.1 within with earlier | last
    · exact .inr ⟨earlier, held⟩
    · exact .inl last
  · rintro (rfl | ⟨earlier, held⟩)
    · exact ⟨Nat.lt_succ_self _, new⟩
    · exact ⟨Nat.lt_succ_of_lt earlier, held⟩

theorem outstanding_give_back (before : List (Move Kind Item)) (n : Nat) :
    outstanding (before ++ [.giveBack n]) = (outstanding before).erase n := by
  ext m
  simp only [outstanding, taken_give_back, Finset.mem_filter, Finset.mem_range, Finset.mem_erase, List.mem_append,
    List.mem_singleton, Move.giveBack.injEq, not_or]
  tauto

theorem share_take (tickets : List (Ticket Kind Item)) (ticket : Ticket Kind Item) (kind : Kind) (item : Item)
    {n : Nat} (earlier : n < tickets.length) :
    share (tickets ++ [ticket]) kind item n = share tickets kind item n := by
  simp [share, List.getElem?_append_left earlier]

/-- An item is in a list as often as the tickets that are out put it there. -/
theorem count_list {moves : List (Move Kind Item)} (orderly : Orderly moves) (kind : Kind) (item : Item) :
    ((moveAll moves).list kind).count item = ∑ n ∈ outstanding moves, share (taken moves) kind item n := by
  induction orderly with
  | nil => simp [moveAll, fresh, outstanding, taken]
  | take before ticket orderly ih =>
      have new : (taken before).length ∉ outstanding before := by simp [outstanding]
      have others : ∑ n ∈ outstanding before, share (taken before ++ [ticket]) kind item n =
          ∑ n ∈ outstanding before, share (taken before) kind item n := by
        refine Finset.sum_congr rfl fun n among => share_take _ _ _ _ ?_
        exact Finset.mem_range.1 (Finset.mem_filter.1 among).1
      rw [move_all_snoc, taken_take, outstanding_take orderly, Finset.sum_insert new, others, ← ih]
      by_cases same : ticket.kind = kind
      · subst same
        simp [move, share, List.count_append, Nat.add_comm]
      · simp [move, share, same, Function.update_of_ne (Ne.symm same)]
  | giveBack before n orderly given held ih =>
      have isOut : n ∈ outstanding before := by simp [outstanding, given, held]
      have whole := Finset.add_sum_erase _ (share (taken before) kind item) isOut
      rw [move_all_snoc, taken_give_back, outstanding_give_back]
      have isTicket := List.getElem?_eq_getElem given
      simp only [move, tickets_taken, isTicket]
      by_cases same : (taken before)[n].kind = kind
      · have own : share (taken before) kind item n = (taken before)[n].items.count item := by
          simp [share, isTicket, same]
        rw [same, Function.update_self, count_erase_all, ih]
        omega
      · have own : share (taken before) kind item n = 0 := by simp [share, isTicket, same]
        rw [Function.update_of_ne (Ne.symm same), ih]
        omega

/-- An item is in a list exactly when a ticket that is out put it there. -/
theorem mem_list {moves : List (Move Kind Item)} (orderly : Orderly moves) (kind : Kind) (item : Item) :
    item ∈ (moveAll moves).list kind ↔ ∃ n ticket, Out moves n ticket ∧ ticket.kind = kind ∧ item ∈ ticket.items := by
  rw [← List.count_pos_iff, count_list orderly, Finset.sum_pos_iff]
  constructor
  · rintro ⟨n, among, some⟩
    obtain ⟨within, held⟩ := Finset.mem_filter.1 among
    have isTicket := List.getElem?_eq_getElem (Finset.mem_range.1 within)
    simp only [share, isTicket] at some
    split at some
    · rename_i same
      exact ⟨n, _, ⟨isTicket, held⟩, same, List.count_pos_iff.1 some⟩
    · exact absurd some (lt_irrefl 0)
  · rintro ⟨n, ticket, ⟨isTicket, held⟩, same, member⟩
    obtain ⟨within, -⟩ := List.getElem?_eq_some_iff.1 isTicket
    refine ⟨n, Finset.mem_filter.2 ⟨Finset.mem_range.2 within, held⟩, ?_⟩
    simpa [share, isTicket, same] using member

end Countinghouse.HeldItems
