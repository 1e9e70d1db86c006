import Mathlib

/-!
Reports that are made once for each key, and no more than so many: the next key after the last one
is answered with a mark, and every later one with nothing. Nothing here belongs to a particular
program.
-/

namespace Countinghouse.CappedReports

universe u v
variable {Item : Type u} {Key : Type v} [DecidableEq Key]

inductive Report (Item : Type u) where
  | item (item : Item)
  | mark
  deriving DecidableEq

/-- The keys seen, and what one item is answered with. -/
def answer (limit : Nat) (key : Item → Key) (seen : List Key) (item : Item) : List Key × List (Report Item) :=
  if key item ∈ seen then (seen, [])
  else if limit < seen.length then (seen, [])
  else if limit < seen.length + 1 then (seen ++ [key item], [.mark])
  else (seen ++ [key item], [.item item])

def run (limit : Nat) (key : Item → Key) (seen : List Key) : List Item → List Key × List (Report Item)
  | [] => (seen, [])
  | item :: rest =>
      let next := answer limit key seen item
      let later := run limit key next.1 rest
      (later.1, next.2 ++ later.2)

theorem run_append (limit : Nat) (key : Item → Key) (seen : List Key) (items more : List Item) :
    run limit key seen (items ++ more) =
      ((run limit key (run limit key seen items).1 more).1,
        (run limit key seen items).2 ++ (run limit key (run limit key seen items).1 more).2) := by
  induction items generalizing seen with
  | nil => rfl
  | cons item rest ih => simp [run, ih]

/-- The items that come first with their keys. -/
def firsts (key : Item → Key) (items : List Item) : List Item :=
  items.foldl (fun kept item => if key item ∈ kept.map key then kept else kept ++ [item]) []

theorem firsts_snoc (key : Item → Key) (items : List Item) (item : Item) :
    firsts key (items ++ [item]) =
      if key item ∈ (firsts key items).map key then firsts key items else firsts key items ++ [item] := by
  simp [firsts, List.foldl_append]

theorem firsts_mem {key : Item → Key} {items : List Item} {item : Item} (member : item ∈ firsts key items) : item ∈ items := by
  induction items using List.reverseRecOn with
  | nil => simp [firsts] at member
  | append_singleton items last ih =>
      rw [firsts_snoc] at member
      split at member
      · exact List.mem_append_left _ (ih member)
      · rcases List.mem_append.1 member with before | here
        · exact List.mem_append_left _ (ih before)
        · exact List.mem_append_right _ here

theorem firsts_covers {key : Item → Key} {items : List Item} {item : Item} (member : item ∈ items) :
    key item ∈ (firsts key items).map key := by
  induction items using List.reverseRecOn with
  | nil => simp at member
  | append_singleton items last ih =>
      rw [firsts_snoc]
      rcases List.mem_append.1 member with before | here
      · have known := ih before
        split
        · exact known
        · rw [List.map_append]
          exact List.mem_append_left _ known
      · rw [List.mem_singleton.1 here]
        split
        · assumption
        · simp

/-- Where the keys tell the items apart, the first items are the items without their repetitions. -/
theorem firsts_eraseDups [DecidableEq Item] {key : Item → Key} {items : List Item}
    (apart : ∀ a ∈ items, ∀ b ∈ items, key a = key b → a = b) : firsts key items = items.eraseDups := by
  induction items using List.reverseRecOn with
  | nil => rfl
  | append_singleton items last ih =>
      have before := ih fun a inA b inB => apart a (List.mem_append_left _ inA) b (List.mem_append_left _ inB)
      have known : key last ∈ (firsts key items).map key ↔ last ∈ items := by
        constructor
        · intro member
          obtain ⟨first, isFirst, same⟩ := List.mem_map.1 member
          have there := firsts_mem isFirst
          rwa [← apart first (List.mem_append_left _ there) last (by simp) same]
        · exact firsts_covers
      rw [before] at known
      rw [firsts_snoc, List.eraseDups_append, before]
      by_cases member : last ∈ items
      · rw [if_pos (known.2 member)]
        simp [List.removeAll, member]
      · rw [if_neg (fun isKnown => member (known.1 isKnown))]
        have alone : [last].removeAll items = [last] := by simp [List.removeAll, member]
        rw [alone, List.eraseDups_cons]
        rfl

/-- What is told of the first items: so many of them, and the mark when there are more. -/
def told (limit : Nat) (items : List Item) : List (Report Item) :=
  (items.take limit).map .item ++ (if limit < items.length then [.mark] else [])

theorem told_snoc_within {limit : Nat} {items : List Item} (item : Item) (within : items.length < limit) :
    told limit (items ++ [item]) = told limit items ++ [.item item] := by
  have all : (items ++ [item]).take limit = items ++ [item] := List.take_of_length_le (by simp; omega)
  have before : items.take limit = items := List.take_of_length_le (by omega)
  simp only [told, all, before, List.length_append, List.length_singleton]
  rw [if_neg (by omega), if_neg (by omega)]
  simp

theorem told_snoc_full {limit : Nat} {items : List Item} (item : Item) (full : items.length = limit) :
    told limit (items ++ [item]) = told limit items ++ [.mark] := by
  have front : (items ++ [item]).take limit = items := by rw [← full, List.take_left]
  have before : items.take limit = items := List.take_of_length_le (by omega)
  simp only [told, front, before, List.length_append, List.length_singleton]
  rw [if_pos (by omega), if_neg (by omega)]
  simp

theorem told_snoc_past {limit : Nat} {items : List Item} (item : Item) (past : limit < items.length) :
    told limit (items ++ [item]) = told limit items := by
  simp only [told, List.length_append, List.length_singleton]
  rw [if_pos (by omega), if_pos past, List.take_append_of_le_length (by omega)]

/-- A run tells the first items up to the limit, and past it the mark, once. -/
theorem run_told (limit : Nat) (key : Item → Key) (items : List Item) :
    run limit key [] items = (((firsts key items).map key).take (limit + 1), told limit (firsts key items)) := by
  induction items using List.reverseRecOn with
  | nil => simp [run, firsts, told]
  | append_singleton items item ih =>
      rw [run_append, ih, firsts_snoc]
      simp only [run, List.append_nil]
      by_cases known : key item ∈ (firsts key items).map key
      · rw [if_pos known]
        by_cases short : (firsts key items).length ≤ limit + 1
        · have all : ((firsts key items).map key).take (limit + 1) = (firsts key items).map key :=
            List.take_of_length_le (by simpa using short)
          rw [all, answer, if_pos known]
          simp
        · have full : limit < (((firsts key items).map key).take (limit + 1)).length := by simp; omega
          have still : answer limit key (((firsts key items).map key).take (limit + 1)) item =
              (((firsts key items).map key).take (limit + 1), []) := by
            rw [answer, if_pos full, ite_self]
          rw [still, List.append_nil]
      · rw [if_neg known]
        have unseen : key item ∉ ((firsts key items).map key).take (limit + 1) :=
          fun seen => known (List.mem_of_mem_take seen)
        rw [answer, if_neg unseen]
        rcases Nat.lt_trichotomy (firsts key items).length limit with within | full | past
        · have all : ((firsts key items).map key).take (limit + 1) = (firsts key items).map key :=
            List.take_of_length_le (by simp; omega)
          have grown : ((firsts key items ++ [item]).map key).take (limit + 1) = (firsts key items ++ [item]).map key :=
            List.take_of_length_le (by simp; omega)
          rw [all, grown, told_snoc_within item within, List.length_map, if_neg (by omega), if_neg (by omega)]
          simp
        · have all : ((firsts key items).map key).take (limit + 1) = (firsts key items).map key :=
            List.take_of_length_le (by simp; omega)
          have grown : ((firsts key items ++ [item]).map key).take (limit + 1) = (firsts key items ++ [item]).map key :=
            List.take_of_length_le (by simp; omega)
          rw [all, grown, told_snoc_full item full, List.length_map, if_neg (by omega), if_pos (by omega)]
          simp
        · have cut : ((firsts key items ++ [item]).map key).take (limit + 1) = ((firsts key items).map key).take (limit + 1) := by
            rw [List.map_append, List.take_append_of_le_length (by simp; omega)]
          rw [cut, told_snoc_past item past, if_pos (by simp; omega)]
          simp

end Countinghouse.CappedReports
