import Mathlib.Algebra.Order.Ring.Defs
import Mathlib.Algebra.Order.Ring.Int
import Mathlib.Data.List.Induction
import Mathlib.Tactic.Linarith

/-!
The disk quota of one module, `Quota` of lib/fs-broker/quota.js: one pool of
bytes and of entries for /data and /tmp. An operation reserves before it grows
the pool and settles afterwards with what it really changed.

Amounts are JavaScript numbers. A finite one is an element of an ordered ring
`R` (no rounding), and `none` is NaN: a length or position that is not a number
reaches `reserve` through `Number(...)`, every comparison with it is false, and it
stays in the sum. An infinite growth is refused under enforce like any growth
past the limit, so it is left out.
-/

namespace Countinghouse.DiskQuota

variable {R : Type} [CommRing R] [LinearOrder R] [IsStrictOrderedRing R]

abbrev Amount (R : Type) := Option R

def plus (a b : Amount R) : Amount R :=
  match a, b with
  | some x, some y => some (x + y)
  | _, _ => none

def minus (a b : Amount R) : Amount R :=
  match a, b with
  | some x, some y => some (x - y)
  | _, _ => none

/-- `a > b`, false when either is NaN. -/
def above (a b : Amount R) : Bool :=
  match a, b with
  | some x, some y => decide (y < x)
  | _, _ => false

/-- `Math.max(0, a)` -/
def atLeastZero (a : Amount R) : Amount R := a.map (max 0)

/-- A threshold crossed upwards, as `crossings` reports it. -/
structure Report (R : Type) where
  percent : Nat
  key : String
  used : R
  max : R
  unit : String

/-- The limits come from the narrowed permissions and are never negative. -/
structure Quota (R : Type) [CommRing R] [LinearOrder R] where
  maxBytes : R
  maxEntries : R
  enforce : Bool
  bytes : Amount R
  entries : Amount R
  armedMb : List Bool
  armedEntries : List Bool
  reports : List (Report R)
  bytesLimit : 0 ≤ maxBytes
  entriesLimit : 0 ≤ maxEntries

/-- `THRESHOLDS`, in quarters of the limit. -/
def thresholds : List Nat := [3, 4]

def opened (maxBytes maxEntries : R) (enforce : Bool) (bytes entries : R)
    (bytesLimit : 0 ≤ maxBytes) (entriesLimit : 0 ≤ maxEntries) : Quota R where
  maxBytes := maxBytes
  maxEntries := maxEntries
  enforce := enforce
  bytes := some bytes
  entries := some entries
  armedMb := thresholds.map fun _ => true
  armedEntries := thresholds.map fun _ => true
  reports := []
  bytesLimit := bytesLimit
  entriesLimit := entriesLimit

/-- `used >= max * t` for a threshold of `quarters`. -/
def reaches (used : Amount R) (max : R) (quarters : Nat) : Bool :=
  match used with
  | none => false
  | some amount => decide ((quarters : R) * max ≤ 4 * amount)

def below (used : Amount R) (max : R) (quarters : Nat) : Bool :=
  match used with
  | none => false
  | some amount => decide (4 * amount < (quarters : R) * max)

/-- One key of `crossings`: a threshold reports and disarms when it is reached,
and arms again below it. -/
def rearmed (used : Amount R) (max : R) (armed : List Bool) : List Bool :=
  (armed.zip thresholds).map fun lane =>
    if lane.1 && reaches used max lane.2 then false
    else if !lane.1 && below used max lane.2 then true
    else lane.1

def crossingReports (key unit : String) (used : Amount R) (max : R) (armed : List Bool) :
    List (Report R) :=
  (armed.zip thresholds).filterMap fun lane =>
    if lane.1 && reaches used max lane.2 then
      used.map fun amount => ⟨25 * lane.2, key, amount, max, unit⟩
    else none

def crossings (q : Quota R) : Quota R :=
  { q with
    armedMb := rearmed q.bytes q.maxBytes q.armedMb
    armedEntries := rearmed q.entries q.maxEntries q.armedEntries
    reports := q.reports ++
      crossingReports "diskMb" "bytes" q.bytes q.maxBytes q.armedMb ++
      crossingReports "diskEntries" "entries" q.entries q.maxEntries q.armedEntries }

/-- `none` is the ENOSPC that `reserve` throws under enforce. -/
def reserve (q : Quota R) (bytes entries : Amount R) : Option (Quota R) :=
  let exceeded := (above bytes (some 0) && above (plus q.bytes bytes) (some q.maxBytes)) ||
    (above entries (some 0) && above (plus q.entries entries) (some q.maxEntries))
  if exceeded && q.enforce then none
  else some (crossings { q with bytes := plus q.bytes bytes, entries := plus q.entries entries })

def settle (q : Quota R) (reservedBytes reservedEntries actualBytes actualEntries : Amount R) :
    Quota R :=
  crossings { q with
    bytes := atLeastZero (plus (minus q.bytes reservedBytes) actualBytes)
    entries := atLeastZero (plus (minus q.entries reservedEntries) actualEntries) }

/-! What an operation holds a reservation for, with the values it measured before
reserving. Positions and lengths may be any number; sizes are those of the host. -/
section Reservations

inductive Purpose (R : Type) where
  /-- `counted` without `actual`: mkdir, mkdtemp, link and symlink. -/
  | entries (count : Nat)
  /-- A name that `open` may create; only a failing open settles it. -/
  | newEntry
  | copyFile (src dst : Nat) (fresh : Bool)
  | write (position : Amount R) (length size : Nat)
  /-- `truncate` and `ftruncate`. -/
  | truncate (length : Amount R) (size : Nat)

def growth (ends : Amount R) (size : Nat) : Amount R := atLeastZero (minus ends (some (size : R)))

def Purpose.bytes : Purpose R → Amount R
  | .entries _ => some 0
  | .newEntry => some 0
  | .copyFile src dst _ => some ((src : R) - dst)
  | .write position length size => growth (plus position (some (length : R))) size
  | .truncate length size => growth length size

def Purpose.names : Purpose R → Amount R
  | .entries count => some (count : R)
  | .newEntry => some 1
  | .copyFile _ _ fresh => some (if fresh then 1 else 0)
  | .write .. => some 0
  | .truncate .. => some 0

/-- How the host call ended; a write may be short. -/
inductive Outcome where
  | failed
  | done (written : Nat)

def finish (q : Quota R) (purpose : Purpose R) : Outcome → Quota R
  | .failed => settle q purpose.bytes purpose.names (some 0) (some 0)
  | .done written =>
      match purpose with
      | .newEntry => q
      | .entries _ | .copyFile .. => settle q purpose.bytes purpose.names purpose.bytes purpose.names
      | .write position length size =>
          settle q purpose.bytes purpose.names
            (growth (plus position (some ((min written length : Nat) : R))) size) (some 0)
      | .truncate length size =>
          settle q purpose.bytes purpose.names (minus length (some (size : R))) (some 0)

/-- A quota with the reservations of the operations in flight. -/
structure Books (R : Type) [CommRing R] [LinearOrder R] where
  quota : Quota R
  held : List (Purpose R)

inductive Event (R : Type) where
  | reserve (purpose : Purpose R)
  | finish (slot : Nat) (outcome : Outcome)
  /-- `release`, and the truncation of `open`: bytes and entries given back. -/
  | release (bytes entries : Nat)

def step (books : Books R) : Event R → Books R
  | .reserve purpose =>
      match reserve books.quota purpose.bytes purpose.names with
      | none => books
      | some q => ⟨q, books.held ++ [purpose]⟩
  | .finish slot outcome =>
      match books.held[slot]? with
      | none => books
      | some purpose => ⟨finish books.quota purpose outcome, books.held.eraseIdx slot⟩
  | .release bytes entries =>
      if bytes = 0 ∧ entries = 0 then books
      else ⟨settle books.quota (some 0) (some 0) (some (-(bytes : R))) (some (-(entries : R))),
        books.held⟩

def run (books : Books R) (events : List (Event R)) : Books R := events.foldl step books

end Reservations

/-! The cap. A reservation is only tested when it grows, and a failing operation
adds a negative reservation back without a test. -/
section Cap

/-- `bytes <= maxBytes && entries <= maxEntries`, false for NaN. -/
def Capped (q : Quota R) : Prop :=
  match q.bytes, q.entries with
  | some bytes, some entries => bytes ≤ q.maxBytes ∧ entries ≤ q.maxEntries
  | _, _ => False

/-- The position or length behind the reservation is a number. -/
def Purpose.Exact : Purpose R → Prop
  | .write position _ _ => position ≠ none
  | .truncate length _ => length ≠ none
  | _ => True

/-- The branch that breaks the cap is not taken: the amount reserved is a
number, and a copyFile over a larger file that fails still finds the room it had
given up. -/
def Fits (books : Books R) : Event R → Prop
  | .reserve purpose => purpose.Exact
  | .finish slot .failed =>
      match books.held[slot]? with
      | some (.copyFile src dst _) =>
          ∀ bytes, books.quota.bytes = some bytes → bytes + (dst - src) ≤ books.quota.maxBytes
      | _ => True
  | _ => True

def EachFits (books : Books R) (events : List (Event R)) : Prop :=
  ∀ before event after, events = before ++ event :: after → Fits (run books before) event

omit [IsStrictOrderedRing R] in
theorem capped_iff (q : Quota R) : Capped q ↔ ∃ bytes entries, q.bytes = some bytes ∧
    q.entries = some entries ∧ bytes ≤ q.maxBytes ∧ entries ≤ q.maxEntries := by
  unfold Capped
  constructor
  · intro capped
    split at capped
    · rename_i bytes entries sameBytes sameEntries
      exact ⟨bytes, entries, sameBytes, sameEntries, capped⟩
    · exact capped.elim
  · rintro ⟨bytes, entries, sameBytes, sameEntries, capped⟩
    simp only [sameBytes, sameEntries]
    exact capped

omit [IsStrictOrderedRing R] in
theorem exact_bytes (purpose : Purpose R) (exactly : purpose.Exact) :
    ∃ bytes, purpose.bytes = some bytes := by
  cases purpose with
  | entries count => exact ⟨_, rfl⟩
  | newEntry => exact ⟨_, rfl⟩
  | copyFile src dst fresh => exact ⟨_, rfl⟩
  | write position length size =>
      obtain ⟨place, same⟩ := Option.ne_none_iff_exists'.mp exactly
      exact ⟨max 0 (place + length - size), by simp [Purpose.bytes, growth, atLeastZero, minus, plus, same]⟩
  | truncate length size =>
      obtain ⟨target, same⟩ := Option.ne_none_iff_exists'.mp exactly
      exact ⟨max 0 (target - size), by simp [Purpose.bytes, growth, atLeastZero, minus, same]⟩

theorem names_nonneg (purpose : Purpose R) : ∃ names, purpose.names = some names ∧ 0 ≤ names := by
  cases purpose with
  | entries count => exact ⟨_, rfl, Nat.cast_nonneg count⟩
  | newEntry => exact ⟨_, rfl, zero_le_one⟩
  | copyFile src dst fresh => cases fresh <;> exact ⟨_, rfl, by simp⟩
  | write position length size => exact ⟨_, rfl, le_refl _⟩
  | truncate length size => exact ⟨_, rfl, le_refl _⟩

omit [IsStrictOrderedRing R] in
/-- What `settle` leaves is within the limits as soon as the sums are. -/
theorem settle_capped (q : Quota R) (bytes entries rb re ab ae : R) (sameBytes : q.bytes = some bytes)
    (sameEntries : q.entries = some entries) :
    Capped (settle q (some rb) (some re) (some ab) (some ae)) ↔
      bytes - rb + ab ≤ q.maxBytes ∧ entries - re + ae ≤ q.maxEntries := by
  simp [Capped, settle, crossings, atLeastZero, plus, minus, sameBytes, sameEntries,
    q.bytesLimit, q.entriesLimit]

theorem reserve_capped (q q' : Quota R) (bytes entries b e : R) (sameBytes : q.bytes = some bytes)
    (sameEntries : q.entries = some entries) (enforced : q.enforce = true)
    (accepted : reserve q (some b) (some e) = some q')
    (bounded : bytes ≤ q.maxBytes) (boundedEntries : entries ≤ q.maxEntries) : Capped q' := by
  simp only [reserve, plus, sameBytes, sameEntries, above, enforced, Bool.and_true] at accepted
  split at accepted
  · simp at accepted
  · rename_i fine
    rw [← Option.some.inj accepted]
    simp only [Capped, crossings]
    simp only [Bool.or_eq_true, Bool.and_eq_true, decide_eq_true_eq, not_or, not_and, not_lt] at fine
    constructor
    · by_cases grows : 0 < b
      · exact fine.1 grows
      · exact le_trans (by linarith) bounded
    · by_cases grows : 0 < e
      · exact fine.2 grows
      · exact le_trans (by linarith) boundedEntries

theorem growth_mono (position : R) (written length size : Nat) (short : written ≤ length) :
    max 0 (position + written - size) ≤ max 0 (position + (length : R) - size) := by
  have cast : (written : R) ≤ length := Nat.cast_le.mpr short
  exact max_le_max (le_refl 0) (by linarith)

/-- A finished operation keeps at most what it had reserved; only a failing
copyFile can give back a negative reservation. -/
theorem finish_capped (q : Quota R) (purpose : Purpose R) (outcome : Outcome)
    (capped : Capped q) (exactly : purpose.Exact)
    (fits : ∀ src dst fresh, outcome = .failed → purpose = .copyFile src dst fresh →
      ∀ bytes, q.bytes = some bytes → bytes + ((dst : R) - src) ≤ q.maxBytes) :
    Capped (finish q purpose outcome) := by
  obtain ⟨bytes, entries, sameBytes, sameEntries, bounded, boundedEntries⟩ := (capped_iff q).mp capped
  obtain ⟨reserved, sameReserved⟩ := exact_bytes purpose exactly
  obtain ⟨names, sameNames, nonneg⟩ := names_nonneg purpose
  have kept : Capped (settle q purpose.bytes purpose.names purpose.bytes purpose.names) := by
    rw [sameReserved, sameNames, settle_capped q bytes entries _ _ _ _ sameBytes sameEntries]
    exact ⟨by simpa using bounded, by simpa using boundedEntries⟩
  cases outcome with
  | failed =>
      rw [finish, sameReserved, sameNames, settle_capped q bytes entries _ _ _ _ sameBytes sameEntries]
      refine ⟨?_, by linarith⟩
      cases purpose with
      | copyFile src dst fresh =>
          have room := fits src dst fresh rfl rfl bytes sameBytes
          have amount : (src : R) - dst = reserved := Option.some.inj sameReserved
          linarith
      | entries count => have := Option.some.inj sameReserved; linarith
      | newEntry => have := Option.some.inj sameReserved; linarith
      | write position length size =>
          obtain ⟨place, same⟩ := Option.ne_none_iff_exists'.mp exactly
          have amount : max 0 (place + (length : R) - size) = reserved := by
            simpa [Purpose.bytes, growth, atLeastZero, minus, plus, same] using sameReserved
          have := le_max_left 0 (place + (length : R) - size)
          linarith
      | truncate length size =>
          obtain ⟨target, same⟩ := Option.ne_none_iff_exists'.mp exactly
          have amount : max 0 (target - (size : R)) = reserved := by
            simpa [Purpose.bytes, growth, atLeastZero, minus, same] using sameReserved
          have := le_max_left 0 (target - (size : R))
          linarith
  | done written =>
      cases purpose with
      | newEntry => exact capped
      | entries count => exact kept
      | copyFile src dst fresh => exact kept
      | write position length size =>
          obtain ⟨place, same⟩ := Option.ne_none_iff_exists'.mp exactly
          subst same
          have less := growth_mono place (min written length) length size (min_le_right _ _)
          refine (settle_capped q bytes entries _ 0 _ 0 sameBytes sameEntries).mpr ⟨?_, by linarith⟩
          linarith
      | truncate length size =>
          obtain ⟨target, same⟩ := Option.ne_none_iff_exists'.mp exactly
          subst same
          have less := le_max_right 0 (target - (size : R))
          refine (settle_capped q bytes entries _ 0 _ 0 sameBytes sameEntries).mpr ⟨?_, by linarith⟩
          linarith

structure Sound (books : Books R) : Prop where
  enforced : books.quota.enforce = true
  capped : Capped books.quota
  exactly : ∀ purpose ∈ books.held, purpose.Exact

omit [IsStrictOrderedRing R] in
theorem finish_enforce (q : Quota R) (purpose : Purpose R) (outcome : Outcome) :
    (finish q purpose outcome).enforce = q.enforce := by
  cases outcome with
  | failed => rfl
  | done written => cases purpose <;> rfl

theorem step_sound (books : Books R) (event : Event R) (sound : Sound books)
    (fits : Fits books event) : Sound (step books event) := by
  obtain ⟨bytes, entries, sameBytes, sameEntries, bounded, boundedEntries⟩ :=
    (capped_iff books.quota).mp sound.capped
  cases event with
  | reserve purpose =>
      obtain ⟨reserved, sameReserved⟩ := exact_bytes purpose fits
      obtain ⟨names, sameNames, _⟩ := names_nonneg purpose
      simp only [step]
      cases accepted : reserve books.quota purpose.bytes purpose.names with
      | none => exact sound
      | some q =>
          refine ⟨?_, ?_, ?_⟩
          · have enforced := sound.enforced
            simp only [reserve] at accepted
            split at accepted
            · simp at accepted
            · rw [← Option.some.inj accepted]; exact enforced
          · rw [sameReserved, sameNames] at accepted
            exact reserve_capped _ _ bytes entries reserved names sameBytes sameEntries
              sound.enforced accepted bounded boundedEntries
          · intro other member
            rcases List.mem_append.mp member with before | same
            · exact sound.exactly other before
            · rw [List.mem_singleton.mp same]; exact fits
  | finish slot outcome =>
      simp only [step]
      cases found : books.held[slot]? with
      | none => exact sound
      | some purpose =>
          have member := List.mem_of_getElem? found
          refine ⟨(finish_enforce _ _ _).trans sound.enforced, ?_, fun other kept =>
            sound.exactly other (List.mem_of_mem_eraseIdx kept)⟩
          apply finish_capped _ _ _ sound.capped (sound.exactly purpose member)
          rintro src dst fresh rfl rfl
          simpa [Fits, found] using fits
  | release given names =>
      simp only [step]
      split
      · exact sound
      · refine ⟨sound.enforced, ?_, sound.exactly⟩
        refine (settle_capped _ bytes entries 0 0 _ _ sameBytes sameEntries).mpr ⟨?_, ?_⟩
        · have := Nat.cast_nonneg (α := R) given
          linarith
        · have := Nat.cast_nonneg (α := R) names
          linarith

/-- A step that leaves the cap intact has not taken the branch `Fits` rules out. -/
theorem capped_step_fits (books : Books R) (event : Event R) (capped : Capped books.quota)
    (after : Capped (step books event).quota) : Fits books event := by
  obtain ⟨bytes, entries, sameBytes, sameEntries, _, _⟩ := (capped_iff books.quota).mp capped
  cases event with
  | reserve purpose =>
      cases purpose with
      | write position length size =>
          rintro rfl
          simp [step, reserve, Purpose.bytes, Purpose.names, growth, atLeastZero, minus, plus, above,
            sameEntries, Capped, crossings] at after
      | truncate length size =>
          rintro rfl
          simp [step, reserve, Purpose.bytes, Purpose.names, growth, atLeastZero, minus, plus, above,
            sameEntries, Capped, crossings] at after
      | _ => trivial
  | finish slot outcome =>
      cases outcome with
      | done written => trivial
      | failed =>
          simp only [Fits]
          split
          · rename_i src dst fresh found
            intro amount same
            have given : Capped (settle books.quota (some ((src : R) - dst))
                (Purpose.copyFile src dst fresh).names (some 0) (some 0)) := by
              simpa [step, found, finish, Purpose.bytes] using after
            obtain ⟨names, sameNames, _⟩ := names_nonneg (Purpose.copyFile (R := R) src dst fresh)
            rw [sameNames, settle_capped _ amount entries _ _ _ _ same sameEntries] at given
            linarith [given.1]
          · trivial
  | release => trivial

/-- Under enforce, the usage stays within both limits after every step of a run
exactly when no step reserves an amount that is not a number and every failing
copyFile still finds the room its negative reservation had given up. -/
theorem cap_holds_iff_each_fits (q : Quota R) (enforced : q.enforce = true) (start : Capped q)
    (events : List (Event R)) :
    (∀ done, done <+: events → Capped (run ⟨q, []⟩ done).quota) ↔ EachFits ⟨q, []⟩ events := by
  constructor
  · rintro capped before event after rfl
    have here := capped before ⟨event :: after, rfl⟩
    have next := capped (before ++ [event]) ⟨after, by simp⟩
    rw [run, List.foldl_append] at next
    exact capped_step_fits _ event here next
  · intro fits done short
    suffices sound : Sound (run ⟨q, []⟩ done) from sound.capped
    -- the run is followed from its end: every prefix of `done` is one of `events`
    induction done using List.reverseRecOn with
    | nil => exact ⟨enforced, start, by simp [run]⟩
    | append_singleton before event ih =>
        obtain ⟨after, whole⟩ := short
        have here := ih ⟨event :: after, by rw [← whole]; simp⟩
        have fit := fits before event after (by rw [← whole]; simp)
        rw [run, List.foldl_append]
        exact step_sound _ event here fit

def fullQuota : Quota Int := opened 100 10 true 100 2 (by decide) (by decide)

/-- A 50-byte file is copied over one of 100 bytes, which makes room for a write of
50 bytes; then the copy fails. -/
def roomUsedTwice : List (Event Int) :=
  [.reserve (.copyFile 50 100 false), .reserve (.write (some 0) 50 0), .finish 0 .failed]

theorem failing_copy_passes_the_cap : Capped fullQuota ∧ fullQuota.enforce = true ∧
    (run ⟨fullQuota, []⟩ roomUsedTwice).quota.bytes = some 150 ∧
    ¬ ∀ done, done <+: roomUsedTwice → Capped (run ⟨fullQuota, []⟩ done).quota := by
  have usage : (run ⟨fullQuota, []⟩ roomUsedTwice).quota.bytes = some 150 := by decide
  refine ⟨by simp [Capped, fullQuota, opened], rfl, usage, fun always => ?_⟩
  obtain ⟨bytes, _, same, _, bounded, _⟩ := (capped_iff _).mp (always _ (List.prefix_refl _))
  rw [usage] at same
  have limit : (run ⟨fullQuota, []⟩ roomUsedTwice).quota.maxBytes = 100 := by decide
  rw [limit, ← Option.some.inj same] at bounded
  exact absurd bounded (by decide)

theorem cap_holds_while_copy_succeeds :
    Capped (run ⟨fullQuota, []⟩ [.reserve (.copyFile 50 100 false), .finish 0 (.done 0)]).quota :=
  (cap_holds_iff_each_fits fullQuota rfl (by simp [Capped, fullQuota, opened])
    [.reserve (.copyFile 50 100 false), .finish 0 (.done 0)]).mpr
    (by
      intro before event after split
      match before, split with
      | [], split => simp only [List.nil_append, List.cons.injEq] at split; rw [← split.1]; trivial
      | [_], split =>
          simp only [List.cons_append, List.nil_append, List.cons.injEq] at split
          rw [← split.2.1]; trivial
      | _ :: _ :: _, split => simp at split)
    _ (List.prefix_refl _)

end Cap

end Countinghouse.DiskQuota
