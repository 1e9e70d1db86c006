import Mathlib.Algebra.Order.Round
import Mathlib.Data.Int.Log
import Mathlib.Data.Rat.Floor
import Mathlib.Tactic.Linarith

/-!
`recordCall` of lib/metering/redis-provider.js: an HMGET of the `devices` field, from
which the legacy free-call count of a tool is worked out, and then RECORD_CALL_SCRIPT,
which Redis runs as one step on the hash of the API key.

A JSON text is identified with the value it parses to. What cjson does to a value when it
decodes and encodes it again is `recoded`. Numbers are exact; `tonumber` of Lua is a
parameter, which is read for a legacy count that is a string.
-/

namespace Countinghouse.RedisMetering

inductive Json where
  | null
  | bool (value : Bool)
  | number (value : ℚ)
  | string (text : String)
  | array (items : List Json)
  | object (fields : List (String × Json))

abbrev Fields := List (String × Json)

/-! Numbers that cjson has written. -/
section Digits

/-- `%.14g` -/
def fourteenDigits (x : ℚ) : ℚ :=
  let unit : ℚ := 10 ^ (Int.log 10 |x| - 13)
  round (x / unit) * unit

theorem fourteen_digits_whole (n : Nat) (small : n < 10 ^ 14) : fourteenDigits n = n := by
  have magnitude : Int.log 10 |(n : ℚ)| ≤ 13 := by
    rcases Nat.eq_zero_or_pos n with rfl | positive
    · simp
    · have isPositive : (0 : ℚ) < n := by exact_mod_cast positive
      have bound : (n : ℚ) < ((10 : ℕ) : ℚ) ^ (14 : ℤ) := by exact_mod_cast small
      rw [abs_of_pos isPositive]
      have := (Int.lt_zpow_iff_log_lt (by norm_num) isPositive).mp bound
      omega
  obtain ⟨places, exponent⟩ : ∃ k : Nat, Int.log 10 |(n : ℚ)| - 13 = -(k : ℤ) :=
    ⟨(13 - Int.log 10 |(n : ℚ)|).toNat, by omega⟩
  have scaled : (n : ℚ) / 10 ^ (-(places : ℤ)) = ((n * 10 ^ places : ℕ) : ℚ) := by
    rw [zpow_neg, zpow_natCast, div_inv_eq_mul]
    push_cast
    rfl
  simp only [fourteenDigits, exponent, scaled, round_natCast]
  push_cast
  rw [zpow_neg, zpow_natCast]
  field_simp

end Digits

mutual

/-- A value after cjson has decoded and encoded it: an empty list has become an empty
object. -/
def recoded : Json → Json
  | .null => .null
  | .bool value => .bool value
  | .number value => .number (fourteenDigits value)
  | .string text => .string text
  | .array [] => .object []
  | .array (item :: rest) => .array (recoded item :: recodedItems rest)
  | .object fields => .object (recodedFields fields)

def recodedItems : List Json → List Json
  | [] => []
  | item :: rest => recoded item :: recodedItems rest

def recodedFields : List (String × Json) → List (String × Json)
  | [] => []
  | (name, value) :: rest => (name, recoded value) :: recodedFields rest

end

/-- `table[name] = value` in Lua. -/
def assign (fields : Fields) (name : String) (value : Json) : Fields :=
  (name, value) :: fields.filter fun field => field.1 != name

/-- `entry.count`, when the entry is a table and its count a number. -/
def entryCount : Json → Option ℚ
  | .object fields =>
      match fields.lookup "count" with
      | some (.number count) => some count
      | _ => none
  | _ => none

/-- `entry.count = count` -/
def withCount (entry : Json) (count : ℚ) : Json :=
  match entry with
  | .object fields => .object (assign fields "count" (.number count))
  | other => other

/-- A number on its way out of Redis. -/
def truncated (x : ℚ) : ℤ := if 0 ≤ x then ⌊x⌋ else ⌈x⌉

/-- What cjson makes of the text of `toolPriceRecord`: a table, or nothing that the script can use. -/
inductive Record where
  | unreadable
  | array (items : List Json)
  | object (fields : Fields)

/-- The hash of an API key. A `devices` that is set to no JSON is `some none`. -/
structure Store where
  toolPriceRecord : Option Record
  balance : Option ℚ
  devices : Option (Option Json)

/-- The third argument of the script: `none` is the empty text, `some none` a text that is
no number. -/
abbrev Seed := Option (Option ℚ)

inductive ScriptReply where
  | error (text : String)
  | free (balance : ℚ) (count : ℤ)
  | charged (balance : ℚ)

/-- `{count = tonumber(ARGV[3])}` -/
def seedEntry : Option ℚ → Json
  | some count => .object [("count", .number count)]
  | none => .object []

/-- The script's `record`, with the seed where the tool has no entry. -/
def seeded (record : Fields) (tool : String) (seed : Seed) : Fields :=
  match record.lookup tool, seed with
  | none, some count => assign record tool (seedEntry count)
  | _, _ => record

/-- The script's HINCRBYFLOAT. -/
def charge (store : Store) (cost : ℚ) : Store × ScriptReply :=
  let balance := store.balance.getD 0 - cost
  ({ store with balance := some balance }, .charged balance)

/-- The script's HSET: the whole record is written back. -/
def spend (store : Store) (record : Fields) (tool : String) (entry : Json) (count : ℚ) : Store × ScriptReply :=
  let spent := assign record tool (withCount entry count)
  ({ store with toolPriceRecord := some (.object (recodedFields spent)) },
    .free (store.balance.getD 0) (truncated count))

/-- RECORD_CALL_SCRIPT from where the record is at hand. -/
def recorded (store : Store) (record : Fields) (tool : String) (cost : ℚ) : Store × ScriptReply :=
  match record.lookup tool with
  | none => charge store cost
  | some entry =>
      match entryCount entry with
      | none => charge store cost
      | some count =>
          if 0 < count then spend store record tool entry (count - 1) else charge store cost

/-- A list with further keys is written as an object. -/
def numbered (items : List Json) : Fields := (items.zipIdx 1).map fun item => (toString item.2, item.1)

/-- RECORD_CALL_SCRIPT -/
def recordCallScript (store : Store) (tool : String) (cost : ℚ) (seed : Seed) : Store × ScriptReply :=
  match store.toolPriceRecord with
  | some .unreadable => (store, .error "toolPriceRecord is not valid JSON")
  | none => recorded store (seeded [] tool seed) tool cost
  | some (.object record) => recorded store (seeded record tool seed) tool cost
  | some (.array items) =>
      -- the keys of a list are numbers, so no text has an entry
      match seed with
      | none => charge store cost
      | some count => recorded store (assign (numbered items) tool (seedEntry count)) tool cost

/-! The legacy count, from the `devices` field. -/
section Legacy

variable (tonumber : String → Option ℚ)

/-- `encodeLegacyTool` joins its three parts with `:::`. -/
def decodeLegacyTool (tool : String) : Option (String × String × String) :=
  match tool.splitOn ":::" with
  | [deviceID, serviceID, actionName] => some (deviceID, serviceID, actionName)
  | _ => none

/-- `value[name]` of a JSON value. What a value inherits has no `count`. -/
def property (value : Json) (name : String) : Option Json :=
  match value with
  | .object fields => fields.lookup name
  | .array items => (items.zipIdx.find? fun item => toString item.2 == name).map Prod.fst
  | _ => none

/-- `value[name]`, when that is not null. -/
def present (value : Json) (name : String) : Option Json :=
  match property value name with
  | some .null => none
  | found => found

/-- `String(count)` and the `tonumber` of the script. A list of one item reads as the
item. -/
def seedNumber : Json → Option ℚ
  | .number value => some value
  | .string text => tonumber text
  | .array [item] => seedNumber item
  | _ => none

/-- The count of a device of the list; `undefined` is no number. -/
def deviceSeed (device : Json) (serviceID actionName : String) : Seed :=
  match (present device "priceRecord").bind fun record =>
      (present record serviceID).bind fun service => present service actionName with
  | none => none
  | some action => some ((property action "count").bind (seedNumber tonumber))

/-- The loop over the devices: the first one with the id decides, and one that is null
throws, which is caught. -/
def legacySeedIn (deviceID serviceID actionName : String) : List Json → Seed
  | [] => none
  | .null :: _ => none
  | device :: rest =>
      match property device "deviceID" with
      | some (.string id) =>
          if id = deviceID then deviceSeed tonumber device serviceID actionName
          else legacySeedIn deviceID serviceID actionName rest
      | _ => legacySeedIn deviceID serviceID actionName rest

/-- `legacySeed` of `recordCall` -/
def legacySeed (devices : Option (Option Json)) (tool : String) : Seed :=
  match devices.join, decodeLegacyTool tool with
  | some (.array items), some (deviceID, serviceID, actionName) =>
      legacySeedIn tonumber deviceID serviceID actionName items
  | _, _ => none

end Legacy

structure Call where
  tool : String
  cost : ℚ

structure Result where
  apiKey : String
  tool : String
  charged : ℚ
  balance : ℚ
  remainingFreeCalls : Option ℤ

inductive Answer where
  | err (text : String)
  | result (value : Result)

/-- The callback of the EVAL. -/
def answerOf (apiKey : String) (call : Call) : ScriptReply → Answer
  | .error text => .err text
  | .free balance count => .result ⟨apiKey, call.tool, 0, balance, some count⟩
  | .charged balance => .result ⟨apiKey, call.tool, call.cost, balance, none⟩

/-- Runs of `recordCall` under one key: those that have sent their EVAL, with the seed that
they have worked out, and the answers given. -/
structure State where
  store : Store
  sent : List (Call × Seed)
  answers : List (Call × Answer)

inductive Action where
  /-- A further `recordCall`, as Redis runs its HMGET. -/
  | hmget (call : Call)
  /-- Redis runs the EVAL at this place of `sent`. -/
  | eval (place : Nat)

def State.start (store : Store) : State := ⟨store, [], []⟩

section Runs

variable (tonumber : String → Option ℚ) (apiKey : String)

def evaluated (s : State) (call : Call) (seed : Seed) (place : Nat) : State :=
  let outcome := recordCallScript s.store call.tool call.cost seed
  { store := outcome.1
    sent := s.sent.eraseIdx place
    answers := s.answers ++ [(call, answerOf apiKey call outcome.2)] }

def step (s : State) : Action → State
  | .hmget call => { s with sent := s.sent ++ [(call, legacySeed tonumber s.store.devices call.tool)] }
  | .eval place =>
      match s.sent[place]? with
      | none => s
      | some (call, seed) => evaluated apiKey s call seed place

def run : List Action → State → State
  | [], s => s
  | action :: rest, s => run rest (step tonumber apiKey s action)

end Runs

/-! Tables after an assignment, and after cjson. -/
section Tables

theorem lookup_assign (fields : Fields) (name other : String) (value : Json) :
    (assign fields name value).lookup other = if other = name then some value else fields.lookup other := by
  by_cases same : other = name
  · simp [assign, same]
  · have differs : (other == name) = false := by simpa using same
    simp only [assign, List.lookup_cons, differs, if_neg same]
    induction fields with
    | nil => rfl
    | cons field rest ih =>
        obtain ⟨key, kept⟩ := field
        by_cases dropped : key = name
        · subst dropped
          simpa [List.lookup_cons, differs] using ih
        · simp only [List.filter_cons, bne_iff_ne, ne_eq, dropped, not_false_eq_true, if_true,
            List.lookup_cons, ih]

theorem lookup_recoded (fields : Fields) (name : String) :
    (recodedFields fields).lookup name = (fields.lookup name).map recoded := by
  induction fields with
  | nil => simp [recodedFields]
  | cons field rest ih =>
      obtain ⟨key, value⟩ := field
      simp only [recodedFields, List.lookup_cons, ih]
      cases name == key <;> rfl

theorem entry_count_recoded (entry : Json) :
    entryCount (recoded entry) = (entryCount entry).map fourteenDigits := by
  cases entry with
  | object fields =>
      simp only [recoded, entryCount, lookup_recoded]
      cases fields.lookup "count" with
      | none => rfl
      | some value =>
          cases value with
          | array items => cases items <;> rfl
          | _ => simp [recoded]
  | array items => cases items <;> simp [recoded, entryCount]
  | _ => simp [recoded, entryCount]

theorem entry_count_with (entry : Json) (before after : ℚ) (isCount : entryCount entry = some before) :
    entryCount (withCount entry after) = some after := by
  cases entry with
  | object fields => simp [withCount, entryCount, lookup_assign]
  | _ => simp [entryCount] at isCount

end Tables

/-! One run of the script. -/
section Script

def Store.record (store : Store) : Fields :=
  match store.toolPriceRecord with
  | some (.object fields) => fields
  | _ => []

/-- The field is not set, or set to a JSON object. -/
def Store.readable (store : Store) : Prop :=
  store.toolPriceRecord = none ∨ store.toolPriceRecord = some (.object store.record)

def Store.entry (store : Store) (tool : String) : Option Json := store.record.lookup tool

/-- The free calls a tool has left: the count of its entry or, when there is none, the
seed. -/
def Store.freeCount (store : Store) (tool : String) (seed : Seed) : Option ℚ :=
  match store.entry tool with
  | some entry => entryCount entry
  | none => seed.join

theorem seed_entry_count (count : Option ℚ) : entryCount (seedEntry count) = count := by
  cases count <;> simp [seedEntry, entryCount]

theorem seeded_count (record : Fields) (tool : String) (seed : Seed) :
    ((seeded record tool seed).lookup tool).bind entryCount =
      match record.lookup tool with
      | some entry => entryCount entry
      | none => seed.join := by
  unfold seeded
  cases found : record.lookup tool with
  | some entry => simp [found]
  | none =>
      cases seed with
      | none => simp [found]
      | some count => simp [lookup_assign, seed_entry_count]

theorem seeded_other (record : Fields) (tool other : String) (seed : Seed) (differs : other ≠ tool) :
    (seeded record tool seed).lookup other = record.lookup other := by
  unfold seeded
  split
  · simp [lookup_assign, differs]
  · rfl

/-- What a free call leaves of the store. -/
structure Spends (before : Store) (tool : String) (count : ℚ) (after : Store) : Prop where
  readable : after.readable
  balance : after.balance = before.balance
  devices : after.devices = before.devices
  others : ∀ other, other ≠ tool → after.entry other = (before.entry other).map recoded
  entry : ∃ entry, after.entry tool = some entry ∧ entryCount entry = some (fourteenDigits (count - 1))

theorem spend_spends (store : Store) (record : Fields) (tool : String) (entry : Json) (count : ℚ)
    (others : ∀ other, other ≠ tool → record.lookup other = store.entry other)
    (isCount : entryCount entry = some count) :
    Spends store tool count (spend store record tool entry (count - 1)).1 := by
  constructor
  · exact .inr rfl
  · rfl
  · rfl
  · intro other differs
    rw [← others other differs]
    simp [spend, Store.entry, Store.record, lookup_recoded, lookup_assign, differs]
  · refine ⟨recoded (withCount entry (count - 1)), ?_, ?_⟩
    · simp [spend, Store.entry, Store.record, lookup_recoded, lookup_assign]
    · rw [entry_count_recoded, entry_count_with entry count _ isCount]
      rfl

/-- A call is free and spends one of the counts left, or it is charged. -/
theorem script_spec (store : Store) (tool : String) (cost : ℚ) (seed : Seed) (readable : store.readable) :
    (∃ count, store.freeCount tool seed = some count ∧ 0 < count ∧
      Spends store tool count (recordCallScript store tool cost seed).1 ∧
      (recordCallScript store tool cost seed).2 = .free (store.balance.getD 0) (truncated (count - 1))) ∨
    ((∀ count, store.freeCount tool seed = some count → count ≤ 0) ∧
      recordCallScript store tool cost seed = charge store cost) := by
  have others := seeded_other store.record tool
  have counted : (store.freeCount tool seed) =
      ((seeded store.record tool seed).lookup tool).bind entryCount :=
    (seeded_count _ tool seed).symm
  have script : recordCallScript store tool cost seed =
      recorded store (seeded store.record tool seed) tool cost := by
    rcases readable with missing | isRecord
    · simp only [recordCallScript, missing, Store.record]
    · rw [recordCallScript, isRecord]
  rw [script, recorded]
  cases found : (seeded store.record tool seed).lookup tool with
  | none =>
      right
      simp [counted, found]
  | some entry =>
      rw [found, Option.bind_some] at counted
      cases isCount : entryCount entry with
      | none =>
          right
          simp [counted, isCount]
      | some count =>
          simp only [isCount]
          by_cases positive : 0 < count
          · left
            simp only [if_pos positive]
            refine ⟨count, counted.trans isCount, positive, ?_, rfl⟩
            apply spend_spends store _ tool entry count _ isCount
            intro other differs
            exact others other seed differs
          · right
            refine ⟨?_, if_neg positive⟩
            intro other same
            rw [counted, isCount] at same
            cases same
            exact not_lt.mp positive

end Script

/-! Any number of runs, interleaved. -/
section Conservation

/-- A whole number that cjson writes in full. -/
def Whole (count : Option ℚ) : Prop := ∀ q, count = some q → ∃ n : Nat, n < 10 ^ 14 ∧ q = n

/-- How many calls a count is good for. -/
def freeCalls (count : Option ℚ) : Nat := (count.map fun q => ⌈q⌉₊).getD 0

def isFree : Answer → Bool
  | .result value => value.remainingFreeCalls.isSome
  | .err _ => false

def answered (s : State) (tool : String) : Nat := s.answers.countP fun item => item.1.tool = tool

def freeAnswers (s : State) (tool : String) : Nat :=
  s.answers.countP fun item => item.1.tool = tool && isFree item.2

/-- The costs of the calls that were not free. -/
def otherCosts (s : State) : ℚ := ((s.answers.filter fun item => !isFree item.2).map fun item => item.1.cost).sum

/-- The answer to a call: nothing is charged for a free one. -/
def Accounts (apiKey : String) (item : Call × Answer) : Prop :=
  ∃ value, item.2 = .result value ∧ value.apiKey = apiKey ∧ value.tool = item.1.tool ∧
    value.charged = if isFree item.2 then 0 else item.1.cost

variable (tonumber : String → Option ℚ) (apiKey : String) (start : Store)

/-- What a tool starts with. -/
def startCount (tool : String) : Option ℚ := start.freeCount tool (legacySeed tonumber start.devices tool)

structure Conserves (s : State) : Prop where
  readable : s.store.readable
  devices : s.store.devices = start.devices
  seeds : ∀ item ∈ s.sent, item.2 = legacySeed tonumber start.devices item.1.tool
  balance : s.store.balance.getD 0 = start.balance.getD 0 - otherCosts s
  results : ∀ item ∈ s.answers, Accounts apiKey item
  counts : ∀ tool, Whole (startCount tonumber start tool) →
    s.store.freeCount tool (legacySeed tonumber start.devices tool) =
        (startCount tonumber start tool).map (fun q : ℚ => q - freeAnswers s tool) ∧
      freeAnswers s tool = min (answered s tool) (freeCalls (startCount tonumber start tool))
  unspent : ∀ tool, freeAnswers s tool = 0 → (start.entry tool).map recoded = start.entry tool →
    s.store.entry tool = start.entry tool

variable {tonumber apiKey start}

theorem start_conserves (readable : start.readable) : Conserves tonumber apiKey start (State.start start) := by
  constructor
  · exact readable
  · rfl
  · intro item member
    cases member
  · simp [State.start, otherCosts]
  · intro item member
    cases member
  · intro tool _
    simp [State.start, freeAnswers, answered, startCount]
  · intro tool _ _
    rfl

/-- The next answer is for this tool or not, and free or not. -/
theorem answered_next (s : State) (store : Store) (sent : List (Call × Seed)) (item : Call × Answer)
    (tool : String) :
    answered ⟨store, sent, s.answers ++ [item]⟩ tool =
        answered s tool + (if item.1.tool = tool then 1 else 0) ∧
      freeAnswers ⟨store, sent, s.answers ++ [item]⟩ tool =
        freeAnswers s tool + (if item.1.tool = tool ∧ isFree item.2 = true then 1 else 0) := by
  constructor
  · simp [answered, List.countP_append, List.countP_singleton]
  · simp [freeAnswers, List.countP_append, List.countP_singleton]

theorem other_costs_next (s : State) (store : Store) (sent : List (Call × Seed)) (item : Call × Answer) :
    otherCosts ⟨store, sent, s.answers ++ [item]⟩ =
      otherCosts s + (if isFree item.2 then 0 else item.1.cost) := by
  cases free : isFree item.2 <;> simp [otherCosts, List.filter_append, free]

/-- The free calls of another tool are as they were. -/
theorem spends_other {before after : Store} {tool other : String} {count : ℚ} {seed : Seed}
    (spends : Spends before tool count after) (differs : other ≠ tool) (whole : Whole (before.freeCount other seed)) :
    after.freeCount other seed = before.freeCount other seed := by
  unfold Store.freeCount at whole ⊢
  rw [spends.others other differs]
  cases found : before.entry other with
  | none => rfl
  | some entry =>
      simp only [found, Option.map_some, entry_count_recoded] at whole ⊢
      cases isCount : entryCount entry with
      | none => rfl
      | some held =>
          obtain ⟨n, small, rfl⟩ := whole held isCount
          simp [fourteen_digits_whole n small]

/-- What is left of a whole count is whole. -/
theorem whole_left {count : Option ℚ} {given : Nat} (whole : Whole count) (within : given ≤ freeCalls count) :
    Whole (count.map fun q => q - given) := by
  intro q isLeft
  cases count with
  | none => cases isLeft
  | some start =>
      obtain ⟨n, small, rfl⟩ := whole start rfl
      simp only [freeCalls, Option.map_some, Option.getD_some, Nat.ceil_natCast] at within
      simp only [Option.map_some, Option.some.injEq] at isLeft
      refine ⟨n - given, by omega, ?_⟩
      rw [← isLeft, Nat.cast_sub within]

theorem free_evaluated {s : State} {call : Call} {count : ℚ} {after : Store} (place : Nat) (reply : ScriptReply)
    (conserves : Conserves tonumber apiKey start s)
    (left : s.store.freeCount call.tool (legacySeed tonumber start.devices call.tool) = some count)
    (positive : 0 < count) (spends : Spends s.store call.tool count after)
    (free : reply = .free (s.store.balance.getD 0) (truncated (count - 1))) :
    Conserves tonumber apiKey start
      ⟨after, s.sent.eraseIdx place, s.answers ++ [(call, answerOf apiKey call reply)]⟩ := by
  have isFreeAnswer : isFree (answerOf apiKey call reply) = true := by simp [free, answerOf, isFree]
  constructor
  · exact spends.readable
  · exact spends.devices.trans conserves.devices
  · intro item member
    exact conserves.seeds item (List.mem_of_mem_eraseIdx member)
  · rw [other_costs_next, spends.balance, conserves.balance]
    simp [isFreeAnswer]
  · intro item member
    rcases List.mem_append.mp member with old | new
    · exact conserves.results item old
    · rw [List.mem_singleton.mp new]
      exact ⟨_, by simp only [free, answerOf]; rfl, rfl, rfl, by simp [isFreeAnswer]⟩
  · intro tool whole
    obtain ⟨counts, given⟩ := conserves.counts tool whole
    obtain ⟨answeredNext, freeNext⟩ := answered_next s after (s.sent.eraseIdx place)
      (call, answerOf apiKey call reply) tool
    rw [answeredNext, freeNext]
    by_cases same : call.tool = tool
    · subst same
      obtain ⟨entry, stored, held⟩ := spends.entry
      obtain ⟨q, isStart⟩ : ∃ q, startCount tonumber start call.tool = some q := by
        cases isStart : startCount tonumber start call.tool with
        | none => simp [isStart, left] at counts
        | some q => exact ⟨q, rfl⟩
      obtain ⟨n, small, rfl⟩ := whole q isStart
      rw [isStart, left, Option.map_some, Option.some.injEq] at counts
      have calls : freeCalls (some (n : ℚ)) = n := by simp [freeCalls]
      rw [isStart, calls] at given ⊢
      have room : freeAnswers s call.tool < n := by
        rw [counts, sub_pos] at positive
        exact_mod_cast positive
      simp only [isFreeAnswer, and_self, if_true, Option.map_some]
      refine ⟨?_, by omega⟩
      have whole : count - 1 = ((n - (freeAnswers s call.tool + 1) : ℕ) : ℚ) := by
        rw [counts, Nat.cast_sub room]
        push_cast
        ring
      simp only [Store.freeCount, stored, held, whole]
      rw [fourteen_digits_whole _ (by omega), Nat.cast_sub room]
    · have stillWhole : Whole (s.store.freeCount tool (legacySeed tonumber start.devices tool)) := by
        rw [counts]
        exact whole_left whole (by omega)
      have kept := spends_other spends (Ne.symm same) stillWhole
      simp only [same, false_and, if_false, Nat.add_zero]
      exact ⟨kept.trans counts, given⟩
  · intro tool none kept
    obtain ⟨_, freeNext⟩ := answered_next s after (s.sent.eraseIdx place)
      (call, answerOf apiKey call reply) tool
    rw [freeNext] at none
    have differs : tool ≠ call.tool := by
      rintro rfl
      simp [isFreeAnswer] at none
    have before := conserves.unspent tool (by omega) kept
    rw [spends.others tool differs, before, kept]

theorem charged_evaluated {s : State} {call : Call} (place : Nat) (conserves : Conserves tonumber apiKey start s)
    (spent : ∀ count, s.store.freeCount call.tool (legacySeed tonumber start.devices call.tool) = some count →
      count ≤ 0) :
    Conserves tonumber apiKey start
      ⟨(charge s.store call.cost).1, s.sent.eraseIdx place,
        s.answers ++ [(call, answerOf apiKey call (charge s.store call.cost).2)]⟩ := by
  have isCharged : isFree (answerOf apiKey call (charge s.store call.cost).2) = false := rfl
  constructor
  · exact conserves.readable
  · exact conserves.devices
  · intro item member
    exact conserves.seeds item (List.mem_of_mem_eraseIdx member)
  · rw [other_costs_next, isCharged]
    simp only [charge, Option.getD_some, conserves.balance]
    simp only [Bool.false_eq_true, if_false]
    ring
  · intro item member
    rcases List.mem_append.mp member with old | new
    · exact conserves.results item old
    · rw [List.mem_singleton.mp new]
      exact ⟨_, rfl, rfl, rfl, by simp [isCharged]⟩
  · intro tool whole
    obtain ⟨counts, given⟩ := conserves.counts tool whole
    obtain ⟨answeredNext, freeNext⟩ := answered_next s (charge s.store call.cost).1 (s.sent.eraseIdx place)
      (call, answerOf apiKey call (charge s.store call.cost).2) tool
    rw [answeredNext, freeNext]
    simp only [isCharged, Bool.false_eq_true, and_false, if_false, Nat.add_zero]
    refine ⟨counts, ?_⟩
    by_cases same : call.tool = tool
    · subst same
      have used : freeCalls (startCount tonumber start call.tool) ≤ freeAnswers s call.tool := by
        cases isStart : startCount tonumber start call.tool with
        | none => simp [freeCalls]
        | some q =>
            rw [isStart, Option.map_some] at counts
            have := spent _ counts
            simp only [freeCalls, Option.map_some, Option.getD_some, Nat.ceil_le]
            linarith
      omega
    · simpa [same] using given
  · intro tool none kept
    obtain ⟨_, freeNext⟩ := answered_next s (charge s.store call.cost).1 (s.sent.eraseIdx place)
      (call, answerOf apiKey call (charge s.store call.cost).2) tool
    rw [freeNext] at none
    exact conserves.unspent tool (by omega) kept

theorem step_conserves {s : State} (action : Action) (conserves : Conserves tonumber apiKey start s) :
    Conserves tonumber apiKey start (step tonumber apiKey s action) := by
  cases action with
  | hmget call =>
      refine { conserves with seeds := ?_ }
      intro item member
      rcases List.mem_append.mp member with old | new
      · exact conserves.seeds item old
      · rw [List.mem_singleton.mp new]
        simp [conserves.devices]
  | eval place =>
      cases found : s.sent[place]? with
      | none => simpa only [step, found] using conserves
      | some item =>
          obtain ⟨call, seed⟩ := item
          have sameSeed : seed = legacySeed tonumber start.devices call.tool :=
            conserves.seeds _ (List.mem_of_getElem? found)
          subst sameSeed
          simp only [step, found, evaluated]
          rcases script_spec s.store call.tool call.cost (legacySeed tonumber start.devices call.tool)
            conserves.readable with ⟨count, left, positive, spends, free⟩ | ⟨spent, charged⟩
          · exact free_evaluated place _ conserves left positive spends free
          · rw [charged]
            exact charged_evaluated place conserves spent

theorem run_conserves (actions : List Action) {s : State} (conserves : Conserves tonumber apiKey start s) :
    Conserves tonumber apiKey start (run tonumber apiKey actions s) := by
  induction actions generalizing s with
  | nil => exact conserves
  | cons action rest ih => exact ih (step_conserves action conserves)

/-- How many runs for a tool there are. -/
def started (actions : List Action) (tool : String) : Nat :=
  actions.countP fun
    | .hmget call => call.tool = tool
    | .eval _ => false

/-- Runs for a tool that have no answer yet. -/
def waiting (s : State) (tool : String) : Nat := s.sent.countP fun item => item.1.tool = tool

theorem erased_waiting {s : State} {place : Nat} {call : Call} {seed : Seed} (found : s.sent[place]? = some (call, seed))
    (tool : String) :
    waiting s tool = (s.sent.eraseIdx place).countP (fun item => item.1.tool = tool) +
      (if call.tool = tool then 1 else 0) := by
  obtain ⟨within, isItem⟩ := List.getElem?_eq_some_iff.mp found
  have perm := (List.getElem_cons_eraseIdx_perm within).countP_eq fun item => item.1.tool = tool
  rw [isItem, List.countP_cons] at perm
  simpa [waiting] using perm.symm

theorem step_answered (tonumber : String → Option ℚ) (apiKey : String) (s : State) (action : Action) (tool : String) :
    answered (step tonumber apiKey s action) tool + waiting (step tonumber apiKey s action) tool =
      answered s tool + waiting s tool + started [action] tool := by
  cases action with
  | hmget call =>
      simp only [step, answered, waiting, List.countP_append, List.countP_singleton, started]
      split <;> omega
  | eval place =>
      cases found : s.sent[place]? with
      | none => simp [step, found, started]
      | some item =>
          obtain ⟨call, seed⟩ := item
          have one := erased_waiting found tool
          simp only [step, found, evaluated]
          rw [(answered_next s _ _ _ tool).1, one]
          simp only [waiting, started, List.countP_singleton]
          simp only [Bool.false_eq_true, if_false]
          omega

theorem run_answered (tonumber : String → Option ℚ) (apiKey : String) (actions : List Action) (s : State)
    (tool : String) :
    answered (run tonumber apiKey actions s) tool + waiting (run tonumber apiKey actions s) tool =
      answered s tool + waiting s tool + started actions tool := by
  induction actions generalizing s with
  | nil => rfl
  | cons action rest ih =>
      have first := step_answered tonumber apiKey s action tool
      have split : started (action :: rest) tool = started [action] tool + started rest tool := by
        rw [started, ← List.singleton_append, List.countP_append]
        rfl
      rw [run, ih, first, split]
      omega

/-- A run for each call, in any order of their HMGETs and EVALs. The free answers for a tool
are as many as its starting count allows, and that count drops by them; the balance falls by
the costs of the other calls. -/
theorem record_calls_conserve (tonumber : String → Option ℚ) (apiKey : String) (readable : start.readable)
    (actions : List Action) {s : State} (reached : run tonumber apiKey actions (State.start start) = s) :
    (∀ tool, s.sent = [] → answered s tool = started actions tool) ∧
    (∀ tool, Whole (startCount tonumber start tool) →
      freeAnswers s tool = min (answered s tool) (freeCalls (startCount tonumber start tool)) ∧
      ∀ entry, s.store.entry tool = some entry →
        entryCount entry = (startCount tonumber start tool).map (fun q : ℚ => q - freeAnswers s tool) ∧
        ∀ count, entryCount entry = some count → 0 ≤ count) ∧
    s.store.balance.getD 0 = start.balance.getD 0 - otherCosts s ∧
    (∀ tool, freeAnswers s tool = 0 → (start.entry tool).map recoded = start.entry tool →
      s.store.entry tool = start.entry tool) ∧
    ∀ item ∈ s.answers, Accounts apiKey item := by
  have conserves : Conserves tonumber apiKey start s :=
    reached ▸ run_conserves actions (start_conserves readable)
  refine ⟨?_, ?_, conserves.balance, conserves.unspent, conserves.results⟩
  · intro tool done
    have total := run_answered tonumber apiKey actions (State.start start) tool
    rw [reached] at total
    simpa [waiting, done, answered, State.start] using total
  · intro tool whole
    obtain ⟨counts, given⟩ := conserves.counts tool whole
    refine ⟨given, ?_⟩
    intro entry stored
    have held : entryCount entry =
        (startCount tonumber start tool).map (fun q : ℚ => q - freeAnswers s tool) := by
      simpa only [Store.freeCount, stored] using counts
    refine ⟨held, ?_⟩
    intro count isCount
    obtain ⟨n, _, rfl⟩ := whole_left whole (by omega) count (held.symm.trans isCount)
    positivity

end Conservation

/-! One call on stores of its own. -/
section Single

/-- Lua's `tonumber`, for texts of digits. -/
def digitsOnly (text : String) : Option ℚ := text.toNat?.map fun n => (n : ℚ)

def counted (count : ℚ) : Json := .object [("count", .number count)]

def priced (record : Fields) : Store := ⟨some (.object record), some 5, none⟩

def once (store : Store) (cost : ℚ) : State :=
  run digitsOnly "key" [.hmget ⟨"scan", cost⟩, .eval 0] (State.start store)

def chargedOf : Answer → Option ℚ
  | .result value => some value.charged
  | .err _ => none

/-- A call that costs nothing is reported as charged 0 and is not free, half a free call is
taken for one, and a count of fifteen digits of another tool is written back rounded. -/
theorem conservation_breaks :
    ((once (priced []) 0).answers.map fun item => (chargedOf item.2, isFree item.2)) = [(some 0, false)] ∧
      ((once (priced [("scan", counted (1 / 2))]) 1).store.entry "scan").bind entryCount = some (-1 / 2) ∧
      ((once (priced [("scan", counted 2), ("lint", counted 100000000000004)]) 1).store.entry "lint").bind
        entryCount = some 100000000000000 := by
  decide +kernel

theorem last_free_call_is_spent :
    (once (priced [("scan", counted 1)]) 3).store.balance.getD 0 = 5 - otherCosts (once (priced [("scan", counted 1)]) 3) ∧
      freeAnswers (once (priced [("scan", counted 1)]) 3) "scan" = 1 := by
  have readable : (priced [("scan", counted 1)]).readable := .inr rfl
  have facts := record_calls_conserve digitsOnly "key" readable [.hmget ⟨"scan", 3⟩, .eval 0]
    (rfl : _ = once (priced [("scan", counted 1)]) 3)
  have whole : Whole (startCount digitsOnly (priced [("scan", counted 1)]) "scan") := by
    intro q isCount
    refine ⟨1, by norm_num, ?_⟩
    have one : startCount digitsOnly (priced [("scan", counted 1)]) "scan" = some 1 := by decide +kernel
    rw [one] at isCount
    simpa using isCount.symm
  refine ⟨facts.2.2.1, ((facts.2.1 "scan" whole).1).trans ?_⟩
  decide +kernel

end Single

end Countinghouse.RedisMetering
