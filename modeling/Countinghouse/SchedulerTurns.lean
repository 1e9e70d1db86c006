import Countinghouse.BrokerQueues

/-!
What `pump` of lib/fs-broker/scheduler.js does turn by turn. A moment is a state of the
scheduler with what it takes from a queue next; between two moments there is one turn, or one
of the changes that the other methods make before they pump.
-/

namespace Countinghouse.SchedulerTurns

open PlainObject BrokerQueues

variable (limits : Limits)

/-! The items of one key. -/
section Keys

def queueOf (s : Scheduler) (key : String) : List Nat := (s.queues.lookup key).getD []

/-- The numbers of a key's items. -/
def ofKey (key : String) (items : List (String × Nat)) : List Nat :=
  (items.filter fun item => item.1 = key).map Prod.snd

theorem ofKey_append (key : String) (first second : List (String × Nat)) :
    ofKey key (first ++ second) = ofKey key first ++ ofKey key second := by
  simp [ofKey]

theorem mem_ofKey {key : String} {items : List (String × Nat)} {n : Nat} : n ∈ ofKey key items ↔ (key, n) ∈ items := by
  simp [ofKey]

theorem ofKey_single (key other : String) (n : Nat) : ofKey key [(other, n)] = if other = key then [n] else [] := by
  by_cases same : other = key <;> simp [ofKey, same]

variable {s : Scheduler}

theorem offer_queue (key : String) :
    queueOf s key = ofKey key (s.offer limits).2.toList ++ queueOf (s.offer limits).1 key := by
  unfold Scheduler.offer
  split
  · rfl
  · rename_i head rest order
    dsimp only
    split
    · rfl
    · rfl
    · rename_i n waiting found
      split
      · rfl
      · by_cases same : key = head
        · subst same
          simp [queueOf, found, lookup_setKey, ofKey_single]
        · simp [queueOf, lookup_setKey, ofKey_single, same, Ne.symm same]

/-- What is taken from a queue is its front. -/
theorem round_queue (left : Nat) (key : String) :
    queueOf s key = ofKey key (s.round limits left).2 ++ queueOf (s.round limits left).1 key := by
  induction left generalizing s with
  | zero => rfl
  | succ left ih =>
      unfold Scheduler.round
      split
      · dsimp only
        rw [ofKey_append, List.append_assoc, ← ih, ← offer_queue]
      · rfl

theorem rounds_queue (left : Nat) (key : String) :
    queueOf s key = ofKey key (s.rounds limits left).2 ++ queueOf (s.rounds limits left).1 key := by
  induction left generalizing s with
  | zero => rfl
  | succ left ih =>
      unfold Scheduler.rounds
      split
      · have first := round_queue limits (s := s) s.order.length key
        split
        · rename_i result
          rw [result] at first
          exact first
        · rename_i result
          rw [result] at first
          dsimp only
          rw [ofKey_append, List.append_assoc, ← ih]
          exact first
      · rfl

theorem pump_queue (key : String) :
    queueOf s key = ofKey key (s.pump limits).2 ++ queueOf (s.pump limits).1 key := rounds_queue limits _ key

/-- No turn starts when the slots are used up. -/
theorem round_capped (left : Nat) (within : s.running ≤ limits.globalCap) :
    (s.round limits left).1.running ≤ limits.globalCap := by
  induction left generalizing s with
  | zero => exact within
  | succ left ih =>
      unfold Scheduler.round
      split
      · rename_i room
        apply ih
        have one : (s.offer limits).2.toList.length ≤ 1 := by cases (s.offer limits).2 <;> simp
        have running := offer_running limits (s := s)
        omega
      · exact within

theorem pump_capped (within : s.running ≤ limits.globalCap) : (s.pump limits).1.running ≤ limits.globalCap := by
  unfold Scheduler.pump
  generalize limits.globalCap - s.running + 1 = left
  induction left generalizing s with
  | zero => exact within
  | succ left ih =>
      unfold Scheduler.rounds
      split
      · have first := round_capped limits s.order.length within
        split
        · rename_i result
          rw [result] at first
          exact first
        · rename_i result
          rw [result] at first
          exact ih first
      · exact within

end Keys

/-! Moments. -/
section Moments

structure Moment where
  state : Scheduler
  taken : Option (String × Nat)

def roundMoments : Nat → Scheduler → List Moment
  | 0, _ => []
  | left + 1, s =>
      if s.running < limits.globalCap then ⟨s, (s.offer limits).2⟩ :: roundMoments left (s.offer limits).1 else []

def roundsMoments : Nat → Scheduler → List Moment
  | 0, _ => []
  | left + 1, s =>
      if s.running < limits.globalCap then
        roundMoments limits s.order.length s ++
          match s.round limits s.order.length with
          | (_, []) => []
          | (next, _) => roundsMoments left next
      else []

def pumpMoments (s : Scheduler) : List Moment := roundsMoments limits (limits.globalCap - s.running + 1) s

/-- One turn of `pump`, or a change of another method. -/
inductive Change : Scheduler → Option (String × Nat) → Scheduler → Prop where
  | turn {s : Scheduler} (room : s.running < limits.globalCap) : Change s (s.offer limits).2 (s.offer limits).1
  | push {s : Scheduler} (key : String) (n : Nat) :
      Change s none
        { s.opened key with queues := setKey (s.opened key).queues key (queueOf (s.opened key) key ++ [n]) }
  | open {s : Scheduler} (key : String) : Change s none (s.opened key)
  | leave {s : Scheduler} (running active : Nat) (key : String) :
      Change s none { s with running := running, active := Function.update s.active key active }
  | forget {s : Scheduler} (key : String) : Change s none (s.forget key).1

/-- Moments that follow on each other. -/
inductive Path : Scheduler → List Moment → Scheduler → Prop where
  | done (s : Scheduler) : Path s [] s
  | next {s after last : Scheduler} {taken : Option (String × Nat)} {moments : List Moment}
      (change : Change limits s taken after) (rest : Path after moments last) : Path s (⟨s, taken⟩ :: moments) last

variable {limits} {s middle last : Scheduler}

theorem Path.append {first second : List Moment} (before : Path limits s first middle) (after : Path limits middle second last) :
    Path limits s (first ++ second) last := by
  induction before with
  | done => exact after
  | next change _ ih => exact .next change (ih after)

theorem Path.one {taken : Option (String × Nat)} (change : Change limits s taken last) : Path limits s [⟨s, taken⟩] last :=
  .next change (.done last)

theorem round_path (limits : Limits) (left : Nat) : Path limits s (roundMoments limits left s) (s.round limits left).1 := by
  induction left generalizing s with
  | zero => exact .done s
  | succ left ih =>
      unfold roundMoments Scheduler.round
      split
      · rename_i room
        exact .next (.turn room) ih
      · exact .done s

theorem rounds_path (left : Nat) : Path limits s (roundsMoments limits left s) (s.rounds limits left).1 := by
  induction left generalizing s with
  | zero => exact .done s
  | succ left ih =>
      unfold roundsMoments Scheduler.rounds
      split
      · have first := round_path limits (s := s) s.order.length
        cases result : s.round limits s.order.length with
        | mk next taken =>
            rw [result] at first
            cases taken with
            | nil => simpa using first
            | cons item items => exact first.append ih
      · exact .done s

theorem pump_path : Path limits s (pumpMoments limits s) (s.pump limits).1 := rounds_path _

theorem round_taken (limits : Limits) (left : Nat) :
    (roundMoments limits left s).filterMap Moment.taken = (s.round limits left).2 := by
  induction left generalizing s with
  | zero => rfl
  | succ left ih =>
      unfold roundMoments Scheduler.round
      split
      · dsimp only
        rw [List.filterMap_cons, ih]
        cases (s.offer limits).2 <;> rfl
      · rfl

/-- The moments have what `pump` takes. -/
theorem pump_taken : (pumpMoments limits s).filterMap Moment.taken = (s.pump limits).2 := by
  unfold pumpMoments Scheduler.pump
  generalize limits.globalCap - s.running + 1 = left
  induction left generalizing s with
  | zero => rfl
  | succ left ih =>
      unfold roundsMoments Scheduler.rounds
      split
      · have first := round_taken limits (s := s) s.order.length
        rw [List.filterMap_append, first]
        cases result : s.round limits s.order.length with
        | mk next taken =>
            cases taken with
            | nil => rfl
            | cons item items => simp [ih]
      · rfl

end Moments

/-! The order of the keys. -/
section Order

variable {limits} {s after last : Scheduler} {taken : Option (String × Nat)}

/-- The keys that have a queue, each once. -/
structure Orderly (s : Scheduler) : Prop where
  apart : s.order.Nodup
  queued : ∀ key, key ∈ s.order ↔ (s.queues.lookup key).isSome = true
  keyed : (s.queues.map Prod.fst).Nodup

theorem fresh_orderly : Orderly Scheduler.fresh := ⟨List.nodup_nil, by simp [Scheduler.fresh], List.nodup_nil⟩

theorem turned_orderly (orderly : Orderly s) {key : String} {rest : List String} (order : s.order = key :: rest) :
    Orderly { s with order := rest ++ [key] } where
  apart := by
    have apart := orderly.apart
    rw [order] at apart
    exact (List.perm_append_singleton key rest).nodup_iff.mpr apart
  queued := by
    intro other
    rw [← orderly.queued, order]
    simp [or_comm]
  keyed := orderly.keyed

theorem setKey_orderly (orderly : Orderly s) {key : String} (found : (s.queues.lookup key).isSome = true)
    (queue' : List Nat) (active : String → Nat) (running : Nat) :
    Orderly { s with queues := setKey s.queues key queue', active := active, running := running } where
  apart := orderly.apart
  queued := by
    intro other
    rw [orderly.queued]
    simp only [lookup_setKey]
    split
    · rename_i same
      simp [same, found]
    · rfl
  keyed := setKey_nodup orderly.keyed key queue'

theorem offer_orderly (orderly : Orderly s) : Orderly (s.offer limits).1 := by
  unfold Scheduler.offer
  split
  · exact orderly
  · rename_i key rest order
    have turned := turned_orderly orderly order
    dsimp only
    split
    · exact turned
    · exact turned
    · rename_i n waiting found
      split
      · exact turned
      · exact setKey_orderly turned (by simp [found]) waiting _ _

theorem opened_orderly (orderly : Orderly s) (key : String) :
    Orderly (s.opened key) ∧ ((s.opened key).queues.lookup key).isSome = true := by
  unfold Scheduler.opened
  split
  · rename_i found
    exact ⟨orderly, by simp [found]⟩
  · rename_i missing
    have fresh : key ∉ s.order := by simp [orderly.queued, missing]
    have lookup : ∀ other, (s.queues ++ [(key, ([] : List Nat))]).lookup other =
        if other = key then some [] else s.queues.lookup other := by
      intro other
      rw [List.lookup_append]
      by_cases same : other = key
      · subst same
        simp [missing]
      · have differs : (other == key) = false := by simpa using same
        simp [List.lookup_cons, differs, same]
    have unused : key ∉ s.queues.map Prod.fst := by
      rintro member
      obtain ⟨⟨name, queue⟩, there, rfl⟩ := List.mem_map.mp member
      have absent := List.lookup_eq_none_iff.mp missing _ there
      simp at absent
    refine ⟨⟨?_, ?_, ?_⟩, by simp [lookup]⟩
    · exact (List.perm_append_singleton key s.order).nodup_iff.mpr (List.nodup_cons.mpr ⟨fresh, orderly.apart⟩)
    · intro other
      rw [lookup, List.mem_append, orderly.queued, List.mem_singleton]
      by_cases same : other = key <;> simp [same]
    · rw [← setKey_absent unused []]
      exact setKey_nodup orderly.keyed key []

theorem forget_orderly (orderly : Orderly s) (key : String) : Orderly (s.forget key).1 where
  apart := orderly.apart.filter _
  queued := by
    intro other
    simp only [Scheduler.forget, List.mem_filter, lookup_deleteKey, orderly.queued]
    by_cases same : other = key <;> simp [same]
  keyed := List.Nodup.sublist (List.filter_sublist.map _) orderly.keyed

theorem Change.orderly (change : Change limits s taken after) (orderly : Orderly s) : Orderly after := by
  cases change with
  | turn room => exact offer_orderly orderly
  | push key n =>
      obtain ⟨opened, found⟩ := opened_orderly orderly key
      exact setKey_orderly opened found _ (s.opened key).active (s.opened key).running
  | «open» key => exact (opened_orderly orderly key).1
  | leave running active key => exact ⟨orderly.apart, orderly.queued, orderly.keyed⟩
  | forget key => exact forget_orderly orderly key

/-- Another key waits. -/
theorem waitingOthers_iff (orderly : Orderly s) (key : String) :
    s.waitingOthers key = true ↔ ∃ other, other ≠ key ∧ queueOf s other ≠ [] := by
  unfold Scheduler.waitingOthers
  rw [List.any_eq_true]
  constructor
  · rintro ⟨⟨other, queue⟩, member, waits⟩
    have found := (lookup_iff_mem orderly.keyed other queue).mpr member
    simp only [ne_eq, Bool.and_eq_true, decide_eq_true_eq, Bool.not_eq_true', List.isEmpty_eq_false_iff] at waits
    exact ⟨other, waits.1, by simpa [queueOf, found] using waits.2⟩
  · rintro ⟨other, differs, waits⟩
    cases found : s.queues.lookup other with
    | none => simp [queueOf, found] at waits
    | some queue =>
        refine ⟨(other, queue), (lookup_iff_mem orderly.keyed other queue).mp found, ?_⟩
        simpa [queueOf, found, differs] using waits

theorem Path.orderly {moments : List Moment} (path : Path limits s moments last) (orderly : Orderly s) : Orderly last := by
  induction path with
  | done => exact orderly
  | next change _ ih => exact ih (change.orderly orderly)

end Order

/-! Turns go round. -/
section Fairness

variable {limits} {s after last : Scheduler} {taken : Option (String × Nat)} {x y : String}

/-- A key waits with less than its share. -/
def Waits (limits : Limits) (s : Scheduler) (key : String) : Prop := queueOf s key ≠ [] ∧ s.active key < limits.perWorker

/-- The turn of `y` comes before that of `x`. -/
def Ahead (y x : String) (order : List String) : Prop := ∃ before rest, order = before ++ y :: rest ∧ x ∉ before

theorem ahead_filter {order : List String} (ahead : Ahead y x order) (p : String → Bool) (kept : p y = true) :
    Ahead y x (order.filter p) := by
  obtain ⟨before, rest, rfl, absent⟩ := ahead
  exact ⟨before.filter p, rest.filter p, by simp [kept], fun member => absent (List.mem_of_mem_filter member)⟩

theorem ahead_append {order : List String} (ahead : Ahead y x order) (more : List String) : Ahead y x (order ++ more) := by
  obtain ⟨before, rest, rfl, absent⟩ := ahead
  exact ⟨before, rest ++ more, by simp, absent⟩

theorem opened_ahead (ahead : Ahead y x s.order) (key : String) : Ahead y x (s.opened key).order := by
  unfold Scheduler.opened
  split
  · exact ahead
  · exact ahead_append ahead _

/-- A waiting key whose turn it is gets a slot. -/
theorem waiting_taken (waits : Waits limits s y) {rest : List String} (order : s.order = y :: rest) :
    ∃ n, (s.offer limits).2 = some (y, n) := by
  unfold Scheduler.offer
  obtain ⟨some, share⟩ := waits
  rw [order]
  dsimp only
  cases found : s.queues.lookup y with
  | none => simp [queueOf, found] at some
  | some queue =>
      cases queue with
      | nil => simp [queueOf, found] at some
      | cons n waiting =>
          have below : ¬ limits.perWorker ≤ s.active y := not_le.mpr share
          exact ⟨n, by simp [below]⟩

theorem offer_order (limits : Limits) {key : String} {rest : List String} (order : s.order = key :: rest) :
    (s.offer limits).1.order = rest ++ [key] ∧ ∀ item, (s.offer limits).2 = some item → item.1 = key := by
  unfold Scheduler.offer
  rw [order]
  dsimp only
  split
  · simp
  · simp
  · split
    · simp
    · simp

theorem offer_taken_order {item : String × Nat} (isTaken : (s.offer limits).2 = some item) :
    ∃ rest, s.order = item.1 :: rest ∧ (s.offer limits).1.order = rest ++ [item.1] := by
  cases order : s.order with
  | nil => simp [Scheduler.offer, order] at isTaken
  | cons key rest =>
      obtain ⟨turned, isKey⟩ := offer_order limits order
      exact ⟨rest, by rw [isKey item isTaken], by rw [turned, isKey item isTaken]⟩

/-- A key that goes on waiting keeps its place before another, or is taken. -/
theorem Change.ahead (change : Change limits s taken after) (ahead : Ahead y x s.order) (waits : Waits limits s y)
    (stays : queueOf after y ≠ []) : (∃ n, taken = some (y, n)) ∨ Ahead y x after.order := by
  cases change with
  | turn room =>
      obtain ⟨before, rest, order, absent⟩ := ahead
      cases before with
      | nil => exact Or.inl (waiting_taken waits order)
      | cons head before =>
          right
          rw [(offer_order limits order).1]
          exact ⟨before, rest ++ [head], by simp, fun member => absent (List.mem_cons_of_mem _ member)⟩
  | push key n => exact Or.inr (opened_ahead ahead key)
  | «open» key => exact Or.inr (opened_ahead ahead key)
  | leave running active key => exact Or.inr ahead
  | forget key =>
      have apart : y ≠ key := by
        rintro rfl
        simp [Scheduler.forget, queueOf, lookup_deleteKey] at stays
      exact Or.inr (ahead_filter ahead _ (by simpa using apart))

/-- Nothing but a turn takes an item, and a turn takes one of the first key. -/
theorem Change.taken_order {item : String × Nat} (change : Change limits s (some item) after) :
    ∃ rest, s.order = item.1 :: rest ∧ after.order = rest ++ [item.1] := by
  generalize isTaken : some item = taken at change
  cases change with
  | turn room => exact offer_taken_order isTaken.symm
  | push key n => cases isTaken
  | «open» key => cases isTaken
  | leave running active key => cases isTaken
  | forget key => cases isTaken

theorem Path.state_eq {moments : List Moment} {m : Moment} (path : Path limits s (m :: moments) last) : m.state = s := by
  cases path
  rfl

/-- While a key is ahead and waits, the other is not taken before it. -/
theorem Path.taken_first {between later : List Moment} {m : Moment} {n : Nat}
    (path : Path limits s (between ++ m :: later) last) (ahead : Ahead y x s.order) (differs : y ≠ x)
    (waits : ∀ moment ∈ between ++ [m], Waits limits moment.state y) (again : m.taken = some (x, n)) :
    ∃ moment ∈ between, ∃ n, moment.taken = some (y, n) := by
  induction between generalizing s with
  | nil =>
      cases path with
      | next change rest =>
          dsimp only at again
          rw [again] at change
          obtain ⟨tail, order, -⟩ := change.taken_order
          obtain ⟨before, rest, split, absent⟩ := ahead
          rw [order] at split
          cases before with
          | nil => exact absurd (List.cons.inj split).1.symm differs
          | cons head before =>
              have same : x = head := (List.cons.inj split).1
              exact absurd (same ▸ List.mem_cons_self ..) absent
  | cons first rest ih =>
      cases path with
      | next change path =>
          rename_i after taken
          have here : Waits limits s y := waits ⟨s, taken⟩ (List.mem_cons_self ..)
          have there : Waits limits after y := by
            cases rest with
            | nil =>
                rw [← path.state_eq]
                exact waits m (by simp)
            | cons second rest =>
                rw [← path.state_eq]
                exact waits second (by simp)
          rcases change.ahead ahead here there.1 with ⟨k, isTaken⟩ | ahead
          · exact ⟨_, List.mem_cons_self .., k, isTaken⟩
          · obtain ⟨moment, member, k, isTaken⟩ := ih path ahead fun moment member => waits moment (by simp [member])
            exact ⟨moment, List.mem_cons_of_mem _ member, k, isTaken⟩

/-- Between two items of one key that are taken, one is taken of each other key that waits all the time. -/
theorem Path.fair {earlier between later : List Moment} {m m' : Moment} {n n' : Nat} (orderly : Orderly s)
    (path : Path limits s (earlier ++ m :: (between ++ m' :: later)) last) (differs : y ≠ x)
    (once : m.taken = some (x, n)) (again : m'.taken = some (x, n'))
    (waits : ∀ moment ∈ between ++ [m'], Waits limits moment.state y) :
    ∃ moment ∈ between, ∃ n, moment.taken = some (y, n) := by
  induction earlier generalizing s with
  | cons first rest ih =>
      cases path with
      | next change path => exact ih (change.orderly orderly) path
  | nil =>
      cases path with
      | next change path =>
          rename_i after taken
          dsimp only at once
          rw [once] at change
          obtain ⟨rest, order, turned⟩ := change.taken_order
          have kept : Orderly after := change.orderly orderly
          have there : Waits limits after y := by
            cases between with
            | nil =>
                rw [← path.state_eq]
                exact waits m' (by simp)
            | cons second between =>
                rw [← path.state_eq]
                exact waits second (by simp)
          have member : y ∈ after.order := by
            rw [kept.queued]
            cases found : after.queues.lookup y with
            | none => exact absurd (by simp [queueOf, found]) there.1
            | some queue => rfl
          have apart := orderly.apart
          rw [order] at apart
          rw [turned] at member
          have inRest : y ∈ rest := by simpa [differs] using member
          obtain ⟨before, tail, split⟩ := List.append_of_mem inRest
          -- `x` goes to the end of the order when it is taken
          have ahead : Ahead y x after.order := by
            refine ⟨before, tail ++ [x], by rw [turned, split]; simp, fun inBefore => ?_⟩
            exact (List.nodup_cons.mp apart).1 (by rw [split]; simp [inBefore])
          exact path.taken_first ahead differs waits again

end Fairness

end Countinghouse.SchedulerTurns
