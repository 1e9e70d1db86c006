import Mathlib
import Countinghouse.PlainObject

/-!
Requests that wait for their reply under a number of their own, and the callbacks they were
made with. A reply calls the callback first and deletes the entry when it has returned; a
callback may make requests while it runs. A queue that is closed is emptied first, and its
callbacks are called one after another.

Callbacks are numbered in the order in which they were handed over. `given` is the number of
the request each was handed over with, nothing for one that was never queued; `calls` is
history.
-/

namespace Countinghouse.RequestQueue

open PlainObject

/-! The queue. -/
section Queues

/-- `key` is what the reply was looked up under; nothing for a call without a lookup. -/
structure Call (Args : Type) where
  callback : Nat
  key : Option String
  args : Args

/-- What is left to do when the callback that a message or a closing called has returned. -/
inductive Turn (Args : Type) where
  | idle
  | removing (key : String)
  | draining (rest : List Nat) (args : Args)

/-- `nested` callbacks run inside the one of `turn`, or outside of any turn. An entry without a callback was made with
something that is no function. -/
structure Queue (Args : Type) where
  entries : Table (Option Nat)
  nextId : Nat
  given : List (Option Nat)
  turn : Turn Args
  nested : Nat
  calls : List (Call Args)

variable {Args : Type}

def empty : Queue Args := ⟨[], 0, [], .idle, 0, []⟩

namespace Queue

/-- No callback is running. -/
def Idle (q : Queue Args) : Prop := q.turn = .idle ∧ q.nested = 0

instance (q : Queue Args) : Decidable q.Idle :=
  match isTurn : q.turn with
  | .idle => decidable_of_iff (q.nested = 0) (by simp [Idle, isTurn])
  | .removing _ => isFalse (by simp [Idle, isTurn])
  | .draining .. => isFalse (by simp [Idle, isTurn])

/-- A request, with a callback or with something that is none. -/
def request (q : Queue Args) (callback : Bool) : Queue Args :=
  { q with
    entries := setKey q.entries (toString q.nextId) (if callback then some q.given.length else none)
    nextId := q.nextId + 1
    given := if callback then q.given ++ [some q.nextId] else q.given }

/-- A message that takes a number and waits for nothing. -/
def skip (q : Queue Args) : Queue Args := { q with nextId := q.nextId + 1 }

/-- A request that goes nowhere. -/
def drop (q : Queue Args) : Queue Args := { q with given := q.given ++ [none] }

/-- A request that is answered before it is queued. -/
def answer (q : Queue Args) (args : Args) : Queue Args :=
  { q with
    given := q.given ++ [none]
    nested := q.nested + 1
    calls := q.calls ++ [⟨q.given.length, none, args⟩] }

/-- The callback of the request of that number, if it waits. -/
def waiting (q : Queue Args) (key : String) : Option Nat :=
  match get q.entries key with
  | .own callback => callback
  | .inherited | .undefined => none

def deliver (q : Queue Args) (key : String) (args : Args) : Queue Args :=
  match q.waiting key with
  | some callback => { q with turn := .removing key, calls := q.calls ++ [⟨callback, some key, args⟩] }
  | none => q

def discard (q : Queue Args) (key : String) : Queue Args := { q with entries := deleteKey q.entries key }

/-- The next callback of a queue that has been closed. -/
def advance (q : Queue Args) (callbacks : List Nat) (args : Args) : Queue Args :=
  match callbacks with
  | [] => { q with turn := .idle }
  | callback :: rest => { q with turn := .draining rest args, calls := q.calls ++ [⟨callback, none, args⟩] }

def callbacks (entries : Table (Option Nat)) : List Nat := entries.filterMap Prod.snd

def drain (q : Queue Args) (args : Args) : Queue Args :=
  { q with entries := [] }.advance (callbacks q.entries) args

/-- The innermost callback returns. -/
def returned (q : Queue Args) : Queue Args :=
  if 0 < q.nested then { q with nested := q.nested - 1 }
  else
    match q.turn with
    | .idle => q
    | .removing key => { q with entries := deleteKey q.entries key, turn := .idle }
    | .draining rest args => q.advance rest args

end Queue

inductive Op (Args : Type) where
  | request (callback : Bool)
  | skip
  | drop
  | answer (args : Args)
  | deliver (key : String) (args : Args)
  | discard (key : String)
  | drain (args : Args)
  | returned

/-- Messages are taken when no callback runs, and no callback closes the queue. -/
def Op.Allowed (q : Queue Args) : Op Args → Prop
  | .deliver .. | .discard .. | .drain .. => q.Idle
  | .request .. | .skip | .drop | .answer .. | .returned => True

def Queue.step (q : Queue Args) : Op Args → Queue Args
  | .request callback => q.request callback
  | .skip => q.skip
  | .drop => q.drop
  | .answer args => q.answer args
  | .deliver key args => q.deliver key args
  | .discard key => q.discard key
  | .drain args => q.drain args
  | .returned => q.returned

def Queue.run (q : Queue Args) (ops : List (Op Args)) : Queue Args := ops.foldl Queue.step q

end Queues

/-! Every callback is called once, and with its own request's reply. -/
section Invariants

variable {Args : Type} {q : Queue Args}

namespace Queue

def called (q : Queue Args) : List Nat := q.calls.map Call.callback

/-- The callbacks that are still to be called. The entry of a callback that runs is none of them, though it is in the
queue until the callback returns. -/
def pending (q : Queue Args) : List Nat :=
  match q.turn with
  | .idle => callbacks q.entries
  | .removing key => callbacks (deleteKey q.entries key)
  | .draining rest _ => rest ++ callbacks q.entries

structure Sound (q : Queue Args) : Prop where
  once : (q.called ++ q.pending).Nodup
  known : ∀ callback ∈ q.called ++ q.pending, callback < q.given.length
  keys : (q.entries.map Prod.fst).Nodup
  numbered : ∀ entry ∈ q.entries, ∃ id < q.nextId, entry.1 = toString id ∧
    ∀ callback, entry.2 = some callback → q.given[callback]? = some (some id)
  removed : ∀ key, q.turn = .removing key → ∃ id < q.nextId, key = toString id
  ids : ∀ id, some id ∈ q.given → id < q.nextId
  apart : (q.given.filterMap id).Nodup
  own : ∀ call ∈ q.calls, ∀ key, call.key = some key →
    ∃ id, q.given[call.callback]? = some (some id) ∧ key = toString id

theorem empty_sound : (empty : Queue Args).Sound where
  once := List.nodup_nil
  known := by simp [empty, called, pending, callbacks]
  keys := List.nodup_nil
  numbered := by simp [empty]
  removed := by simp [empty]
  ids := by simp [empty]
  apart := List.nodup_nil
  own := by simp [empty]

theorem toString_apart {id bound : Nat} (below : id < bound) : toString id ≠ toString bound := by
  intro same
  have equal : id = bound := Nat.repr_injective same
  omega

theorem Sound.fresh (sound : q.Sound) : toString q.nextId ∉ q.entries.map Prod.fst := by
  intro member
  obtain ⟨entry, there, same⟩ := List.mem_map.mp member
  obtain ⟨id, below, named, -⟩ := sound.numbered entry there
  exact toString_apart below (named.symm.trans same)

/-- What has been handed over stays where it is. -/
theorem given_kept {given : List (Option Nat)} {callback id : Nat} (there : given[callback]? = some (some id))
    (more : List (Option Nat)) : (given ++ more)[callback]? = some (some id) := by
  obtain ⟨within, -⟩ := List.getElem?_eq_some_iff.mp there
  rw [List.getElem?_append_left within, there]

/-- Callbacks leave `pending` by being called, or for good. -/
theorem pending_append (entries : Table (Option Nat)) (key : String) (callback : Option Nat) :
    callbacks (entries ++ [(key, callback)]) = callbacks entries ++ callback.toList := by
  cases callback <;> simp [callbacks]

theorem callbacks_deleteKey {entries : Table (Option Nat)} (nodup : (entries.map Prod.fst).Nodup) {key : String}
    {callback : Nat} (found : entries.lookup key = some (some callback)) :
    (callbacks entries).Perm (callback :: callbacks (deleteKey entries key)) := by
  obtain ⟨before, after, split, clear⟩ := List.lookup_eq_some_iff.mp found
  subst split
  have first : key ∉ before.map Prod.fst := by
    intro member
    obtain ⟨entry, there, named⟩ := List.mem_map.mp member
    have := clear entry there
    simp [named] at this
  have second : key ∉ after.map Prod.fst := by
    simp only [List.map_append, List.map_cons, List.nodup_append, List.nodup_cons] at nodup
    exact nodup.2.1.1
  have without : deleteKey (before ++ (key, some callback) :: after) key = before ++ after := by
    have left := deleteKey_absent first
    have right := deleteKey_absent second
    unfold deleteKey at left right ⊢
    rw [List.filter_append, left, List.filter_cons_of_neg (by simp), right]
  rw [without]
  simp [callbacks]

theorem Sound.request_pending (sound : q.Sound) (callback : Bool) :
    (q.request callback).pending = q.pending ++ (if callback then some q.given.length else none).toList := by
  have entries : (q.request callback).entries =
      q.entries ++ [(toString q.nextId, if callback then some q.given.length else none)] :=
    setKey_absent sound.fresh _
  have turn : (q.request callback).turn = q.turn := rfl
  unfold pending
  rw [turn, entries]
  cases isTurn : q.turn with
  | idle => exact pending_append ..
  | removing key =>
      -- the new entry is not the one that goes when the callback returns
      obtain ⟨id, below, named⟩ := sound.removed key isTurn
      have kept : deleteKey (q.entries ++ [(toString q.nextId, if callback then some q.given.length else none)]) key =
          deleteKey q.entries key ++ [(toString q.nextId, if callback then some q.given.length else none)] := by
        have differs : toString q.nextId ≠ key := named ▸ (toString_apart below).symm
        simpa [deleteKey, List.filter_append] using differs
      simp only [kept, pending_append]
  | draining rest args => simp only [pending_append, List.append_assoc]

/-- Callbacks that are handed over are new. -/
theorem Sound.new_once (sound : q.Sound) : (q.called ++ (q.pending ++ [q.given.length])).Nodup := by
  rw [← List.append_assoc, List.nodup_append]
  refine ⟨sound.once, List.nodup_singleton _, ?_⟩
  intro callback member other isNew same
  have below := sound.known callback member
  rw [List.mem_singleton] at isNew
  omega

theorem Sound.request (sound : q.Sound) (callback : Bool) : (q.request callback).Sound := by
  have entries : (q.request callback).entries =
      q.entries ++ [(toString q.nextId, if callback then some q.given.length else none)] :=
    setKey_absent sound.fresh _
  have pending := sound.request_pending callback
  have given : (q.request callback).given = q.given ++ if callback then [some q.nextId] else [] := by
    cases callback <;> simp [Queue.request]
  constructor
  · change (q.called ++ (q.request callback).pending).Nodup
    rw [pending]
    cases callback with
    | false => simpa using sound.once
    | true => exact sound.new_once
  · intro other member
    change other ∈ q.called ++ (q.request callback).pending at member
    rw [pending, ← List.append_assoc, List.mem_append] at member
    rw [given]
    rcases member with old | isNew
    · have := sound.known other old
      rw [List.length_append]
      omega
    · cases callback with
      | false => simp at isNew
      | true => simp_all
  · rw [entries, List.map_append, List.nodup_append]
    refine ⟨sound.keys, List.nodup_singleton _, ?_⟩
    rintro key member other isNew rfl
    obtain rfl := List.mem_singleton.mp isNew
    exact sound.fresh member
  · intro entry member
    rw [entries, List.mem_append] at member
    rcases member with old | isNew
    · obtain ⟨id, below, named, queued⟩ := sound.numbered entry old
      refine ⟨id, Nat.lt_succ_of_lt below, named, fun other isOther => ?_⟩
      rw [given]
      exact given_kept (queued other isOther) _
    · obtain rfl := List.mem_singleton.mp isNew
      refine ⟨q.nextId, Nat.lt_succ_self _, rfl, fun other isOther => ?_⟩
      cases callback with
      | false => cases isOther
      | true =>
          cases isOther
          simp [given]
  · intro key turn
    obtain ⟨id, below, named⟩ := sound.removed key turn
    exact ⟨id, Nat.lt_succ_of_lt below, named⟩
  · intro id member
    rw [given, List.mem_append] at member
    rcases member with old | isNew
    · exact Nat.lt_succ_of_lt (sound.ids id old)
    · cases callback with
      | false => cases isNew
      | true =>
          cases List.mem_singleton.mp isNew
          exact Nat.lt_succ_self _
  · rw [given, List.filterMap_append, List.nodup_append]
    refine ⟨sound.apart, by cases callback <;> simp, ?_⟩
    intro id member other isNew same
    have below := sound.ids id (by simpa using member)
    cases callback with
    | false => simp at isNew
    | true =>
        simp only [↓reduceIte, List.filterMap_cons, id_eq, List.filterMap_nil, List.mem_singleton] at isNew
        omega
  · intro call member key isKey
    obtain ⟨id, queued, named⟩ := sound.own call member key isKey
    refine ⟨id, ?_, named⟩
    rw [given]
    exact given_kept queued _

theorem Sound.skip (sound : q.Sound) : q.skip.Sound :=
  { sound with
    numbered := by
      intro entry member
      obtain ⟨id, below, rest⟩ := sound.numbered entry member
      exact ⟨id, Nat.lt_succ_of_lt below, rest⟩
    removed := by
      intro key turn
      obtain ⟨id, below, named⟩ := sound.removed key turn
      exact ⟨id, Nat.lt_succ_of_lt below, named⟩
    ids := fun id member => Nat.lt_succ_of_lt (sound.ids id member) }

theorem Sound.drop (sound : q.Sound) : q.drop.Sound :=
  { sound with
    known := by
      intro callback member
      have := sound.known callback member
      simp only [Queue.drop, List.length_append]
      omega
    numbered := by
      intro entry member
      obtain ⟨id, below, named, queued⟩ := sound.numbered entry member
      exact ⟨id, below, named, fun callback isCallback => given_kept (queued callback isCallback) _⟩
    ids := fun id member => sound.ids id (by simpa [Queue.drop] using member)
    apart := by simpa [Queue.drop] using sound.apart
    own := by
      intro call member key isKey
      obtain ⟨id, queued, named⟩ := sound.own call member key isKey
      exact ⟨id, given_kept queued _, named⟩ }

theorem Sound.answer (sound : q.Sound) (args : Args) : (q.answer args).Sound :=
  have called : (q.answer args).called = q.called ++ [q.given.length] := by simp [Queue.answer, Queue.called]
  { sound.drop with
    once := by
      rw [called, List.append_assoc]
      exact (List.perm_append_comm.append_left q.called).nodup_iff.mp sound.new_once
    known := by
      intro callback member
      rw [called, List.append_assoc] at member
      simp only [Queue.answer, List.length_append, List.length_singleton]
      rcases List.mem_append.mp member with old | rest
      · exact Nat.lt_succ_of_lt (sound.known callback (List.mem_append_left _ old))
      · rcases List.mem_cons.mp rest with rfl | old
        · exact Nat.lt_succ_self _
        · exact Nat.lt_succ_of_lt (sound.known callback (List.mem_append_right _ old))
    own := by
      intro call member key isKey
      rcases List.mem_append.mp member with old | isNew
      · exact sound.drop.own call old key isKey
      · cases List.mem_singleton.mp isNew
        cases isKey }

theorem waiting_lookup {key : String} {callback : Nat} (waits : q.waiting key = some callback) :
    q.entries.lookup key = some (some callback) := by
  unfold waiting at waits
  split at waits
  · rename_i found
    rw [own_lookup found, waits]
  · cases waits
  · cases waits

theorem Sound.deliver (sound : q.Sound) (idle : q.Idle) (key : String) (args : Args) : (q.deliver key args).Sound := by
  unfold Queue.deliver
  split
  · rename_i callback waits
    have found := waiting_lookup waits
    obtain ⟨id, below, named, queued⟩ := sound.numbered _ (lookup_mem found)
    have order : (q.called ++ q.pending).Perm (q.called ++ [callback] ++ callbacks (deleteKey q.entries key)) := by
      rw [List.append_assoc]
      apply List.Perm.append_left
      simpa [pending, idle.1] using callbacks_deleteKey sound.keys found
    have called : (q.calls ++ [(⟨callback, some key, args⟩ : Call Args)]).map Call.callback = q.called ++ [callback] := by
      simp [Queue.called]
    exact
      { sound with
        once := by
          change ((q.calls ++ [_]).map Call.callback ++ _).Nodup
          rw [called]
          exact order.nodup_iff.mp sound.once
        known := by
          intro other member
          change other ∈ (q.calls ++ [_]).map Call.callback ++ _ at member
          rw [called] at member
          exact sound.known other (order.mem_iff.mpr member)
        removed := by
          rintro _ ⟨⟩
          exact ⟨id, below, named⟩
        own := by
          intro call member other isKey
          rcases List.mem_append.mp member with old | isNew
          · exact sound.own call old other isKey
          · cases List.mem_singleton.mp isNew
            cases isKey
            exact ⟨id, queued callback rfl, named⟩ }
  · exact sound

/-- Entries go. -/
theorem callbacks_sublist {fewer entries : Table (Option Nat)} (sub : fewer.Sublist entries) :
    (callbacks fewer).Sublist (callbacks entries) := sub.filterMap _

theorem Sound.discard (sound : q.Sound) (idle : q.Idle) (key : String) : (q.discard key).Sound := by
  have less : (q.called ++ (q.discard key).pending).Sublist (q.called ++ q.pending) := by
    apply List.Sublist.append_left
    simpa [pending, Queue.discard, idle.1, deleteKey] using callbacks_sublist (List.filter_sublist (l := q.entries))
  exact
    { sound with
      once := less.nodup sound.once
      known := fun callback member => sound.known callback (less.subset member)
      keys := (List.filter_sublist.map _).nodup sound.keys
      numbered := fun entry member => sound.numbered entry (mem_deleteKey.mp member).1 }

/-- The callbacks of a queue that is being closed are called in turn. -/
theorem Sound.advance (sound : q.Sound) {rest : List Nat} (closed : (q.called ++ (rest ++ callbacks q.entries)).Nodup)
    (known : ∀ callback ∈ q.called ++ (rest ++ callbacks q.entries), callback < q.given.length) (args : Args) :
    (q.advance rest args).Sound := by
  cases rest with
  | nil => exact { sound with once := closed, known, removed := by rintro _ ⟨⟩ }
  | cons callback rest =>
      have called : (q.calls ++ [(⟨callback, none, args⟩ : Call Args)]).map Call.callback ++
          (rest ++ callbacks q.entries) = q.called ++ (callback :: rest ++ callbacks q.entries) := by
        simp [Queue.called]
      exact
        { sound with
          once := by
            change ((q.calls ++ [_]).map Call.callback ++ (rest ++ callbacks q.entries)).Nodup
            rw [called]
            exact closed
          known := by
            intro other member
            change other ∈ (q.calls ++ [_]).map Call.callback ++ (rest ++ callbacks q.entries) at member
            rw [called] at member
            exact known other member
          removed := by rintro _ ⟨⟩
          own := by
            intro call member key isKey
            rcases List.mem_append.mp member with old | isNew
            · exact sound.own call old key isKey
            · cases List.mem_singleton.mp isNew
              cases isKey }

theorem Sound.drain (sound : q.Sound) (idle : q.Idle) (args : Args) : (q.drain args).Sound := by
  have pending : q.pending = callbacks q.entries ++ callbacks [] := by simp [Queue.pending, idle.1, callbacks]
  have emptied : ({ q with entries := [] } : Queue Args).Sound :=
    { sound with
      once := (List.Sublist.append_left (by simp [Queue.pending, idle.1, callbacks]) _).nodup sound.once
      known := by
        intro callback member
        apply sound.known callback
        simp only [Queue.pending, idle.1, callbacks] at member ⊢
        simp_all [Queue.called]
      keys := List.nodup_nil
      numbered := by simp }
  apply emptied.advance
  · have := sound.once
    rwa [pending] at this
  · have := sound.known
    rwa [pending] at this

theorem Sound.returned (sound : q.Sound) : q.returned.Sound := by
  unfold Queue.returned
  split
  · exact { sound with }
  · cases isTurn : q.turn with
    | idle => exact sound
    | removing key =>
        have once := sound.once
        have known := sound.known
        simp only [Queue.pending, isTurn] at once known
        exact
          { sound with
            once, known
            keys := (List.filter_sublist.map _).nodup sound.keys
            numbered := fun entry member => sound.numbered entry (mem_deleteKey.mp member).1
            removed := by rintro _ ⟨⟩ }
    | draining rest args =>
        have once := sound.once
        have known := sound.known
        simp only [Queue.pending, isTurn] at once known
        exact sound.advance once known args

theorem Sound.step (sound : q.Sound) {op : Op Args} (allowed : op.Allowed q) : (q.step op).Sound := by
  cases op with
  | request callback => exact sound.request callback
  | skip => exact sound.skip
  | drop => exact sound.drop
  | answer args => exact sound.answer args
  | deliver key args => exact sound.deliver allowed key args
  | discard key => exact sound.discard allowed key
  | drain args => exact sound.drain allowed args
  | returned => exact sound.returned

end Queue

end Invariants

/-! What a call is made for, and what a closing leaves. -/
section Calls

variable {Args : Type} {q : Queue Args}

namespace Queue

/-- The operation that makes this call, in this state. -/
def Makes (q : Queue Args) (op : Op Args) (call : Call Args) : Prop :=
  match op with
  | .deliver key args => call.key = some key ∧ call.args = args
  | .answer args | .drain args => call.key = none ∧ call.args = args
  | .returned => call.key = none ∧ ∃ rest, q.turn = .draining rest call.args
  | .request _ | .skip | .drop | .discard _ => False

theorem advance_calls (rest : List Nat) (args : Args) {call : Call Args} (member : call ∈ (q.advance rest args).calls) :
    call ∈ q.calls ∨ call.key = none ∧ call.args = args := by
  cases rest with
  | nil => exact Or.inl member
  | cons callback rest =>
      rcases List.mem_append.mp member with old | isNew
      · exact Or.inl old
      · cases List.mem_singleton.mp isNew
        exact Or.inr ⟨rfl, rfl⟩

theorem step_calls (op : Op Args) {call : Call Args} (member : call ∈ (q.step op).calls) :
    call ∈ q.calls ∨ q.Makes op call := by
  cases op with
  | request callback => exact Or.inl member
  | skip => exact Or.inl member
  | drop => exact Or.inl member
  | discard key => exact Or.inl member
  | answer args =>
      rcases List.mem_append.mp member with old | isNew
      · exact Or.inl old
      · cases List.mem_singleton.mp isNew
        exact Or.inr ⟨rfl, rfl⟩
  | deliver key args =>
      change call ∈ (q.deliver key args).calls at member
      unfold deliver at member
      split at member
      · rcases List.mem_append.mp member with old | isNew
        · exact Or.inl old
        · cases List.mem_singleton.mp isNew
          exact Or.inr ⟨rfl, rfl⟩
      · exact Or.inl member
  | drain args => exact advance_calls (q := { q with entries := [] }) (callbacks q.entries) args member
  | returned =>
      change call ∈ q.returned.calls at member
      unfold returned at member
      split at member
      · exact Or.inl member
      · split at member
        · exact Or.inl member
        · exact Or.inl member
        · rename_i rest args isTurn
          rcases advance_calls rest args member with old | isNew
          · exact Or.inl old
          · exact Or.inr ⟨isNew.1, rest, isNew.2 ▸ isTurn⟩

theorem advance_grows (rest : List Nat) (args : Args) {call : Call Args} (there : call ∈ q.calls) :
    call ∈ (q.advance rest args).calls := by
  cases rest with
  | nil => exact there
  | cons callback rest => exact List.mem_append_left _ there

theorem calls_grow (op : Op Args) {call : Call Args} (there : call ∈ q.calls) : call ∈ (q.step op).calls := by
  cases op with
  | request callback => exact there
  | skip => exact there
  | drop => exact there
  | discard key => exact there
  | answer args => exact List.mem_append_left _ there
  | deliver key args =>
      change call ∈ (q.deliver key args).calls
      unfold deliver
      split
      · exact List.mem_append_left _ there
      · exact there
  | drain args => exact advance_grows (q := { q with entries := [] }) (callbacks q.entries) args there
  | returned =>
      change call ∈ q.returned.calls
      unfold returned
      split
      · exact there
      · split
        · exact there
        · exact there
        · exact advance_grows _ _ there

theorem advance_turn {rest left : List Nat} {args held : Args}
    (turn : (q.advance rest args).turn = .draining left held) : held = args := by
  cases rest with
  | nil => cases turn
  | cons callback rest =>
      cases turn
      rfl

theorem deliver_turn {key : String} {args held : Args} {left : List Nat}
    (turn : (q.deliver key args).turn = .draining left held) : q.turn = .draining left held := by
  unfold deliver at turn
  split at turn
  · cases turn
  · exact turn

theorem returned_turn {left : List Nat} {held : Args} (turn : q.returned.turn = .draining left held) :
    ∃ rest, q.turn = .draining rest held := by
  unfold returned at turn
  split at turn
  · exact ⟨left, turn⟩
  · split at turn
    · exact ⟨left, turn⟩
    · cases turn
    · rename_i rest args isTurn
      cases advance_turn turn
      exact ⟨rest, isTurn⟩

theorem advance_entries (rest : List Nat) (args : Args) : (q.advance rest args).entries = q.entries := by
  cases rest <;> rfl

theorem returned_empty (none : q.entries = []) : q.returned.entries = [] := by
  unfold returned
  split
  · exact none
  · split
    · exact none
    · simp [none, deleteKey]
    · rw [advance_entries, none]

theorem deliver_entries (key : String) (args : Args) : (q.deliver key args).entries = q.entries := by
  unfold deliver
  split <;> rfl

/-- This callback has been called with what the queue was closed with, or will be. -/
def Settles (q : Queue Args) (args : Args) (callback : Nat) : Prop :=
  ⟨callback, none, args⟩ ∈ q.calls ∨ ∃ rest, q.turn = .draining rest args ∧ callback ∈ rest

theorem advance_settles {rest : List Nat} (args : Args) {callback : Nat} (member : callback ∈ rest) :
    (q.advance rest args).Settles args callback := by
  cases rest with
  | nil => cases member
  | cons first rest =>
      rcases List.mem_cons.mp member with rfl | later
      · exact Or.inl (List.mem_append_right _ (List.mem_singleton_self _))
      · exact Or.inr ⟨rest, rfl, later⟩

theorem drain_settles (args : Args) {callback : Nat} (waits : callback ∈ callbacks q.entries) :
    (q.drain args).Settles args callback := advance_settles args waits

theorem Settles.step {args : Args} {callback : Nat} (settles : q.Settles args callback) (op : Op Args)
    (allowed : op.Allowed q) : (q.step op).Settles args callback := by
  rcases settles with made | ⟨rest, isTurn, member⟩
  · exact Or.inl (calls_grow op made)
  · -- only the return of a callback moves a closing on
    have busy : ¬ q.Idle := by
      intro idle
      cases isTurn.symm.trans idle.1
    cases op with
    | request callback => exact Or.inr ⟨rest, isTurn, member⟩
    | skip => exact Or.inr ⟨rest, isTurn, member⟩
    | drop => exact Or.inr ⟨rest, isTurn, member⟩
    | answer args => exact Or.inr ⟨rest, isTurn, member⟩
    | deliver key args => exact absurd allowed busy
    | discard key => exact absurd allowed busy
    | drain args => exact absurd allowed busy
    | returned =>
        change q.returned.Settles args callback
        unfold returned
        split
        · exact Or.inr ⟨rest, isTurn, member⟩
        · rw [isTurn]
          exact advance_settles args member

/-- The callbacks that have to return before nothing runs any more. -/
def remaining (q : Queue Args) : Nat :=
  q.nested + match q.turn with
    | .idle => 0
    | .removing _ => 1
    | .draining rest _ => rest.length + 1

theorem remaining_idle (none : q.remaining = 0) : q.Idle := by
  unfold remaining at none
  unfold Idle
  cases isTurn : q.turn <;> simp_all

theorem returned_remaining (busy : 0 < q.remaining) : q.returned.remaining = q.remaining - 1 := by
  unfold remaining at busy ⊢
  unfold returned
  split
  · rename_i nested
    simp only
    omega
  · rename_i flat
    have outer : q.nested = 0 := by omega
    cases isTurn : q.turn with
    | idle => simp [outer, isTurn] at busy
    | removing key => simp [outer]
    | draining rest args => cases rest <;> simp [advance, outer]

/-- If callbacks do no more than return, nothing runs in the end. -/
theorem returns_idle (q : Queue Args) : (q.run (List.replicate q.remaining .returned)).Idle := by
  induction left : q.remaining generalizing q with
  | zero => exact remaining_idle left
  | succ count ih =>
      rw [List.replicate_succ]
      apply ih q.returned
      rw [returned_remaining (by omega), left]
      rfl

end Queue

end Calls

end Countinghouse.RequestQueue
