import Mathlib
import Countinghouse.OutputSchemas
import Countinghouse.UniqueReading

/-!
`canonicalJSON` of lib/mcp/output-schema-hash.js is a canonical form: its text says what the
value is, up to the order of the keys of its objects.
-/

namespace Countinghouse.CanonicalJson

open JsonValues OutputSchemas UniqueReading
open RedisMetering (Json Fields)

/-! `JSON.stringify` of a text. -/
section Texts

def hexDigit (value : Nat) : Char := if value < 10 then Char.ofNat (48 + value) else Char.ofNat (87 + value)

def escapeChar (c : Char) : List Char :=
  if c = '"' then ['\\', '"']
  else if c = '\\' then ['\\', '\\']
  else if c = '\u0008' then ['\\', 'b']
  else if c = '\u000C' then ['\\', 'f']
  else if c = '\n' then ['\\', 'n']
  else if c = '\r' then ['\\', 'r']
  else if c = '\t' then ['\\', 't']
  else if c.toNat < 32 then ['\\', 'u', '0', '0', hexDigit (c.toNat / 16), hexDigit (c.toNat % 16)]
  else [c]

def escaped (text : List Char) : List Char := text.flatMap escapeChar

def quote (text : String) : String := String.ofList ('"' :: escaped text.toList ++ ['"'])

/-- The value of a digit that `hexDigit` writes. -/
def hexValue (c : Char) : Nat := if c.isDigit then c.toNat - 48 else c.toNat - 87

/-- The first character of an escaped text, up to the closing quote. -/
def unescape : List Char → Option (Char × List Char)
  | '\\' :: '"' :: rest => some ('"', rest)
  | '\\' :: '\\' :: rest => some ('\\', rest)
  | '\\' :: 'b' :: rest => some ('\u0008', rest)
  | '\\' :: 'f' :: rest => some ('\u000C', rest)
  | '\\' :: 'n' :: rest => some ('\n', rest)
  | '\\' :: 'r' :: rest => some ('\r', rest)
  | '\\' :: 't' :: rest => some ('\t', rest)
  | '\\' :: 'u' :: '0' :: '0' :: high :: low :: rest => some (Char.ofNat (16 * hexValue high + hexValue low), rest)
  | '"' :: _ => none
  | c :: rest => some (c, rest)
  | [] => none

theorem hex_value_digit : ∀ value < 16, hexValue (hexDigit value) = value := by
  decide

theorem unescape_escape (c : Char) (rest : List Char) : unescape (escapeChar c ++ rest) = some (c, rest) := by
  unfold escapeChar
  split
  · subst c
    rfl
  split
  · subst c
    rfl
  split
  · subst c
    rfl
  split
  · subst c
    rfl
  split
  · subst c
    rfl
  split
  · subst c
    rfl
  split
  · subst c
    rfl
  split
  · rename_i small
    have high := hex_value_digit (c.toNat / 16) (by omega)
    have low := hex_value_digit (c.toNat % 16) (by omega)
    have whole : Char.ofNat (16 * (c.toNat / 16) + c.toNat % 16) = c := by
      rw [Nat.div_add_mod]
      exact Char.ofNat_toNat c
    simp only [List.cons_append, List.nil_append, unescape, high, low, whole]
  · rename_i notQuote notSlash _ _ _ _ _ _
    simp only [List.cons_append, List.nil_append]
    unfold unescape
    split <;> simp_all

/-- A quoted text is read up to its closing quote. -/
theorem escaped_reads (text : List Char) :
    ∀ other rest left, escaped text ++ '"' :: rest = escaped other ++ '"' :: left → text = other ∧ rest = left := by
  induction text with
  | nil =>
      intro other rest left equal
      cases other with
      | nil => exact ⟨rfl, by simpa [escaped] using equal⟩
      | cons c more =>
          have read := congrArg unescape equal
          simp only [escaped, List.flatMap_nil, List.nil_append, List.flatMap_cons, List.append_assoc,
            unescape_escape] at read
          cases read
  | cons c text ih =>
      intro other rest left equal
      have read := congrArg unescape equal
      cases other with
      | nil =>
          simp only [escaped, List.flatMap_nil, List.nil_append, List.flatMap_cons, List.append_assoc,
            unescape_escape] at read
          cases read
      | cons d more =>
          simp only [escaped, List.flatMap_cons, List.append_assoc, unescape_escape, Option.some.injEq, Prod.mk.injEq] at read
          -- one character of each text is read, and the rest is shorter
          obtain ⟨rfl, tails⟩ := read
          obtain ⟨rfl, isLeft⟩ := ih more rest left tails
          exact ⟨rfl, isLeft⟩

theorem quote_reads {text other : String} {rest left : List Char}
    (equal : (quote text).toList ++ rest = (quote other).toList ++ left) : text = other ∧ rest = left := by
  simp only [quote, String.toList_ofList, List.cons_append, List.append_assoc, List.nil_append, List.cons.injEq, true_and]
    at equal
  obtain ⟨same, isLeft⟩ := escaped_reads _ _ _ _ equal
  exact ⟨String.toList_inj.mp same, isLeft⟩

/-- The characters of a finite number's text. -/
def isNumeral (c : Char) : Bool := c.isDigit || c ∈ ['-', '+', '.', 'e', 'E']

/-- `JSON.stringify` as the language has it. -/
structure Stringify (js : Builtins) : Prop where
  text : ∀ text, js.quote text = quote text
  number : ∀ value, js.number value ≠ "" ∧ ∀ c ∈ (js.number value).toList, isNumeral c = true

end Texts

/-! Values up to the order of keys. -/
section Same

variable (js : Builtins)

mutual

/-- Numbers are compared by their texts. -/
def SameJson : Json → Json → Prop
  | .null, other => other = .null
  | .bool value, other => other = .bool value
  | .number value, other => ∃ number, other = .number number ∧ js.number value = js.number number
  | .string text, other => other = .string text
  | .array items, other => ∃ others, other = .array others ∧ SameItems items others
  | .object fields, other => ∃ others, other = .object others ∧ SameFields fields others

def SameItems : List Json → List Json → Prop
  | [], others => others = []
  | item :: items, others => ∃ first rest, others = first :: rest ∧ SameJson item first ∧ SameItems items rest

/-- Each field has one of its own anywhere among the others. -/
def SameFields : List (String × Json) → List (String × Json) → Prop
  | [], others => others = []
  | (key, value) :: fields, others =>
      ∃ before held after, others = before ++ (key, held) :: after ∧ SameJson value held ∧
        SameFields fields (before ++ after)

end

mutual

/-- The keys of an object are different, at every depth. -/
def keyed : Json → Bool
  | .array items => keyedItems items
  | .object fields => (fields.map Prod.fst).Nodup && keyedFields fields
  | _ => true

def keyedItems : List Json → Bool
  | [] => true
  | item :: items => keyed item && keyedItems items

def keyedFields : List (String × Json) → Bool
  | [] => true
  | (_, value) :: fields => keyed value && keyedFields fields

end

/-- Fields with one key and one value. -/
def SameField (field other : String × Json) : Prop := field.1 = other.1 ∧ SameJson js field.2 other.2

theorem same_items_iff (items others : List Json) :
    SameItems js items others ↔ List.Forall₂ (SameJson js) items others := by
  induction items generalizing others with
  | nil => simp [SameItems]
  | cons item items ih =>
      simp only [SameItems, ih, List.forall₂_cons_left_iff]
      constructor
      · rintro ⟨first, rest, isOthers, same, all⟩
        exact ⟨first, rest, same, all, isOthers⟩
      · rintro ⟨first, rest, same, all, isOthers⟩
        exact ⟨first, rest, isOthers, same, all⟩

theorem same_fields_iff (fields others : List (String × Json)) :
    SameFields js fields others ↔ ∃ aligned, List.Forall₂ (SameField js) fields aligned ∧ aligned.Perm others := by
  induction fields generalizing others with
  | nil => simp [SameFields]
  | cons field fields ih =>
      obtain ⟨key, value⟩ := field
      simp only [SameFields, ih]
      constructor
      · rintro ⟨before, held, after, rfl, same, aligned, all, perm⟩
        exact ⟨(key, held) :: aligned, .cons ⟨rfl, same⟩ all, (perm.cons _).trans List.perm_middle.symm⟩
      · rintro ⟨aligned, all, perm⟩
        obtain ⟨⟨_, held⟩, rest, ⟨rfl, same⟩, restAll, rfl⟩ := List.forall₂_cons_left_iff.mp all
        obtain ⟨before, after, rfl⟩ := List.append_of_mem (perm.subset List.mem_cons_self)
        exact ⟨before, held, after, rfl, same, rest, restAll, (perm.trans List.perm_middle).cons_inv⟩

theorem keyed_items_iff (items : List Json) : keyedItems items = true ↔ ∀ item ∈ items, keyed item = true := by
  induction items with
  | nil => simp [keyedItems]
  | cons item items ih => simp [keyedItems, ih]

theorem keyed_fields_iff (fields : List (String × Json)) :
    keyedFields fields = true ↔ ∀ field ∈ fields, keyed field.2 = true := by
  induction fields with
  | nil => simp [keyedFields]
  | cons field fields ih => simp [keyedFields, ih]

end Same

/-! The order of keys. -/
section Order

open FileNamespace (units textLe)

theorem units_cons (c : Char) (text : List Char) :
    units (String.ofList (c :: text)) =
      (if c.toNat < 0x10000 then [c.toNat]
        else [0xD800 + (c.toNat - 0x10000) / 0x400, 0xDC00 + (c.toNat - 0x10000) % 0x400]) ++
      units (String.ofList text) := by
  simp [units]

/-- The first unit of a character tells whether there is a second. -/
theorem units_inj (text : List Char) :
    ∀ other, units (String.ofList text) = units (String.ofList other) → text = other := by
  induction text with
  | nil =>
      intro other same
      cases other with
      | nil => rfl
      | cons d more =>
          rw [units_cons] at same
          split at same <;> simp [units] at same
  | cons c text ih =>
      intro other same
      cases other with
      | nil =>
          rw [units_cons] at same
          split at same <;> simp [units] at same
      | cons d more =>
          have validC : c.toNat < 0xD800 ∨ 0xDFFF < c.toNat ∧ c.toNat < 0x110000 := c.valid
          have validD : d.toNat < 0xD800 ∨ 0xDFFF < d.toNat ∧ d.toNat < 0x110000 := d.valid
          have both : c.toNat = d.toNat ∧ units (String.ofList text) = units (String.ofList more) := by
            rw [units_cons, units_cons] at same
            split at same <;> split at same <;>
              simp only [List.cons_append, List.nil_append, List.cons.injEq] at same
            · exact same
            · omega
            · omega
            · exact ⟨by omega, same.2.2⟩
          rw [Char.toNat_inj.mp both.1, ih more both.2]

theorem textLe_antisymm {a b : String} (before : textLe a b = true) (after : textLe b a = true) : a = b := by
  simp only [textLe, decide_eq_true_eq] at before after
  have same := units_inj a.toList b.toList (by simpa using le_antisymm before after)
  exact String.toList_inj.mp same

theorem textLe_total (a b : String) : textLe a b = true ∨ textLe b a = true := by
  simp only [textLe, decide_eq_true_eq]
  exact le_total _ _

theorem textLe_trans {a b c : String} (first : textLe a b = true) (second : textLe b c = true) : textLe a c = true := by
  simp only [textLe, decide_eq_true_eq] at first second ⊢
  exact le_trans first second

/-- Texts under the same keys come out in the same order, however they went in. -/
theorem sort_perm {fields others : List (String × String)} (perm : fields.Perm others)
    (nodup : (fields.map Prod.fst).Nodup) : sortByKey fields = sortByKey others := by
  have : Std.Total fun a b : String × String => textLe a.1 b.1 = true := ⟨fun a b => textLe_total a.1 b.1⟩
  have : IsTrans (String × String) fun a b => textLe a.1 b.1 = true := ⟨fun _ _ _ => textLe_trans⟩
  have sorted := List.pairwise_insertionSort (fun a b : String × String => textLe a.1 b.1 = true)
  have isSorted := List.perm_insertionSort (fun a b : String × String => textLe a.1 b.1 = true)
  refine List.Perm.eq_of_pairwise ?_ (sorted fields) (sorted others)
    ((isSorted fields).trans (perm.trans (isSorted others).symm))
  intro first second member other before after
  have inFields := (isSorted fields).subset member
  have inOthers := perm.symm.subset ((isSorted others).subset other)
  exact List.inj_on_of_nodup_map nodup inFields inOthers (textLe_antisymm before after)

end Order

/-! Texts. -/
section Printing

variable (js : Builtins)

def text (value : Json) : List Char := (canonicalJSON js value).toList

def fieldText (field : String × Json) : List Char := (js.quote field.1).toList ++ ':' :: text js field.2

/-- Fields in the order of their keys. -/
def inOrder (fields : List (String × Json)) : List (String × Json) :=
  fields.insertionSort fun a b => FileNamespace.textLe a.1 b.1 = true

theorem canonical_items_eq (items : List Json) : canonicalItems js items = items.map (canonicalJSON js) := by
  induction items with
  | nil => rfl
  | cons item items ih => rw [canonicalItems, ih, List.map_cons]

theorem canonical_fields_eq (fields : List (String × Json)) :
    canonicalFields js fields = fields.map fun field => (field.1, canonicalJSON js field.2) := by
  induction fields with
  | nil => rfl
  | cons field fields ih => rw [canonicalFields, ih, List.map_cons]

theorem text_array (items : List Json) : text js (.array items) = '[' :: printList ',' ']' (text js) items := by
  rw [← print_list_intercalate, text, canonicalJSON, canonical_items_eq]
  simp only [String.toList_append, String.toList_intercalate, List.map_map]
  rfl

theorem text_object (fields : List (String × Json)) :
    text js (.object fields) = '\x7b' :: printList ',' '\x7d' (fieldText js) (inOrder fields) := by
  have sorted : sortByKey (canonicalFields js fields) =
      (inOrder fields).map fun field => (field.1, canonicalJSON js field.2) := by
    rw [canonical_fields_eq, sortByKey, inOrder,
      List.map_insertionSort _ (fun a b : String × String => FileNamespace.textLe a.1 b.1 = true)]
    intro a _ b _
    rfl
  rw [← print_list_intercalate, text, canonicalJSON, sorted]
  have perField : String.toList ∘ (fun field => js.quote field.1 ++ ":" ++ field.2) ∘
      (fun field : String × Json => (field.1, canonicalJSON js field.2)) = fieldText js := by
    funext field
    simp [fieldText, text]
  simp only [String.toList_append, String.toList_intercalate, List.map_map, perField]
  rfl

end Printing

/-! Equal values have one text. -/
section Sound

variable {js : Builtins}

theorem map_eq_of_forall₂ {α β γ : Type} {related : α → β → Prop} {f : α → γ} {g : β → γ} {xs : List α} {ys : List β}
    (all : List.Forall₂ related xs ys) (equal : ∀ x ∈ xs, ∀ y, related x y → f x = g y) : xs.map f = ys.map g := by
  induction all with
  | nil => rfl
  | cons first _ ih =>
      rw [List.map_cons, List.map_cons, equal _ List.mem_cons_self _ first,
        ih fun x member => equal x (List.mem_cons_of_mem _ member)]

theorem same_canonical (value : Json) :
    ∀ other, keyed value = true → SameJson js value other → canonicalJSON js value = canonicalJSON js other := by
  induction value using json_induction with
  | null =>
      intro other _ same
      rw [show other = .null from same]
  | bool value =>
      intro other _ same
      rw [show other = .bool value from same]
  | number value =>
      rintro other _ ⟨number, rfl, same⟩
      exact same
  | string text =>
      intro other _ same
      rw [show other = .string text from same]
  | array items ih =>
      rintro other isKeyed ⟨others, rfl, same⟩
      have keys := (keyed_items_iff items).mp isKeyed
      have texts := map_eq_of_forall₂ ((same_items_iff js items others).mp same)
        fun item member other isSame => ih item member other (keys item member) isSame
      rw [canonicalJSON, canonicalJSON, canonical_items_eq, canonical_items_eq, texts]
  | object fields ih =>
      rintro other isKeyed ⟨others, rfl, same⟩
      simp only [keyed, Bool.and_eq_true, decide_eq_true_eq] at isKeyed
      have keys := (keyed_fields_iff fields).mp isKeyed.2
      obtain ⟨aligned, all, perm⟩ := (same_fields_iff js fields others).mp same
      have texts : canonicalFields js fields = canonicalFields js aligned := by
        rw [canonical_fields_eq, canonical_fields_eq]
        refine map_eq_of_forall₂ all ?_
        rintro field member other ⟨sameKey, sameValue⟩
        rw [sameKey, ih field member other.2 (keys field member) sameValue]
      -- different keys are sorted in one way only
      have nodup : ((canonicalFields js aligned).map Prod.fst).Nodup := by
        rw [← texts, canonical_fields_eq, List.map_map]
        exact isKeyed.1
      have reordered : (canonicalFields js aligned).Perm (canonicalFields js others) := by
        rw [canonical_fields_eq, canonical_fields_eq]
        exact perm.map _
      rw [canonicalJSON, canonicalJSON, texts, sort_perm reordered nodup]

end Sound

/-! The text of a value is read back. -/
section Complete

variable {js : Builtins}

/-- What may follow a value. -/
def endsValue (c : Char) : Prop := c = ',' ∨ c = ']' ∨ c = '\x7d'

theorem comma_ends : endsValue ',' := Or.inl rfl

theorem bracket_ends : endsValue ']' := Or.inr (Or.inl rfl)

theorem brace_ends : endsValue '\x7d' := Or.inr (Or.inr rfl)

/-- The first characters that values of one kind have. -/
def opening (c : Char) : Nat :=
  if c = 'n' then 0
  else if c = 't' then 1
  else if c = 'f' then 2
  else if c = '"' then 3
  else if c = '[' then 4
  else if c = '\x7b' then 5
  else if isNumeral c then 6
  else 7

def kindOf : Json → Nat
  | .null => 0
  | .bool true => 1
  | .bool false => 2
  | .string _ => 3
  | .array _ => 4
  | .object _ => 5
  | .number _ => 6

theorem numeral_opening {c : Char} (numeral : isNumeral c = true) : opening c = 6 ∧ ¬ endsValue c := by
  constructor
  · have apart : ∀ other ∈ ['n', 't', 'f', '"', '[', '\x7b'], isNumeral other = false := by simp [isNumeral]
    have differs : ∀ other ∈ ['n', 't', 'f', '"', '[', '\x7b'], c ≠ other := by
      intro other member same
      rw [same, apart other member] at numeral
      cases numeral
    rw [opening, if_neg (differs _ (by decide)), if_neg (differs _ (by decide)), if_neg (differs _ (by decide)),
      if_neg (differs _ (by decide)), if_neg (differs _ (by decide)), if_neg (differs _ (by decide)), if_pos numeral]
  · have apart : ∀ other ∈ [',', ']', '\x7d'], isNumeral other = false := by simp [isNumeral]
    have differs : ∀ other ∈ [',', ']', '\x7d'], c ≠ other := by
      intro other member same
      rw [same, apart other member] at numeral
      cases numeral
    rintro (same | same | same)
    · exact differs _ (by decide) same
    · exact differs _ (by decide) same
    · exact differs _ (by decide) same

theorem text_opening (standard : Stringify js) (value : Json) :
    ∃ first more, text js value = first :: more ∧ opening first = kindOf value := by
  cases value with
  | null => exact ⟨'n', "ull".toList, by rw [text, canonicalJSON]; rfl, rfl⟩
  | bool value =>
      cases value with
      | true => exact ⟨'t', "rue".toList, by rw [text, canonicalJSON]; rfl, rfl⟩
      | false => exact ⟨'f', "alse".toList, by rw [text, canonicalJSON]; rfl, rfl⟩
  | number value =>
      obtain ⟨some, numerals⟩ := standard.number value
      obtain ⟨first, more, isText⟩ := List.exists_cons_of_ne_nil (show (js.number value).toList ≠ [] by simpa using some)
      exact ⟨first, more, isText, (numeral_opening (numerals first (by simp [isText]))).1⟩
  | string value => exact ⟨'"', _, by simp only [text, canonicalJSON, standard.text, quote, String.toList_ofList]; rfl, rfl⟩
  | array items => exact ⟨'[', _, text_array js items, rfl⟩
  | object fields => exact ⟨'\x7b', _, text_object js fields, rfl⟩

theorem same_kind (standard : Stringify js) {value other : Json} {rest left : List Char}
    (equal : text js value ++ rest = text js other ++ left) : kindOf value = kindOf other := by
  obtain ⟨first, more, isText, isKind⟩ := text_opening standard value
  obtain ⟨head, tail, isOther, otherKind⟩ := text_opening standard other
  rw [isText, isOther, List.cons_append, List.cons_append, List.cons.injEq] at equal
  rw [← isKind, ← otherKind, equal.1]

theorem text_opens (standard : Stringify js) : Opens ']' (text js) := by
  intro value
  obtain ⟨first, more, isText, isKind⟩ := text_opening standard value
  refine ⟨first, more, isText, ?_⟩
  rintro rfl
  have isSeven : opening ']' = 7 := by decide
  rw [isSeven] at isKind
  cases value with
  | bool value => cases value <;> cases isKind
  | _ => cases isKind

theorem field_opens (standard : Stringify js) : Opens '\x7d' (fieldText js) := by
  intro field
  have isText : fieldText js field = '"' :: (escaped field.1.toList ++ ['"'] ++ ':' :: text js field.2) := by
    rw [fieldText, standard.text, quote, String.toList_ofList, List.cons_append, List.cons_append]
  exact ⟨'"', _, isText, by decide⟩

theorem number_reads (standard : Stringify js) {value number : ℚ} {rest left : List Char} (stopped : Stopped endsValue rest)
    (leftStopped : Stopped endsValue left)
    (equal : (js.number value).toList ++ rest = (js.number number).toList ++ left) :
    js.number value = js.number number ∧ rest = left := by
  have stops : ∀ {chars : List Char}, Stopped endsValue chars → Stopped (fun c => ¬ isNumeral c = true) chars := by
    intro chars isStopped c head numeral
    exact (numeral_opening numeral).2 (isStopped c head)
  obtain ⟨same, isLeft⟩ := run_reads (standard.number value).2 (standard.number number).2 (stops stopped)
    (stops leftStopped) equal
  exact ⟨String.toList_inj.mp same, isLeft⟩

/-- A field is its key, a colon and its value. -/
theorem field_reads (standard : Stringify js) {field : String × Json}
    (reads : Reads (text js) (SameJson js) endsValue field.2) : Reads (fieldText js) (SameField js) endsValue field := by
  intro other rest left stopped leftStopped equal
  simp only [fieldText, standard.text, List.append_assoc] at equal
  obtain ⟨sameKey, tails⟩ := quote_reads equal
  simp only [List.cons_append, List.cons.injEq, true_and] at tails
  obtain ⟨sameValue, isLeft⟩ := reads other.2 rest left stopped leftStopped tails
  exact ⟨⟨sameKey, sameValue⟩, isLeft⟩

theorem value_reads (standard : Stringify js) (value : Json) : Reads (text js) (SameJson js) endsValue value := by
  induction value using json_induction with
  | null =>
      intro other rest left _ _ equal
      have kind := same_kind standard equal
      cases other with
      | null => exact ⟨rfl, List.append_cancel_left equal⟩
      | bool value => cases value <;> cases kind
      | _ => cases kind
  | bool value =>
      intro other rest left _ _ equal
      have kind := same_kind standard equal
      cases other with
      | bool held =>
          have same : value = held := by cases value <;> cases held <;> first | rfl | cases kind
          subst same
          exact ⟨rfl, List.append_cancel_left equal⟩
      | _ => cases value <;> cases kind
  | number value =>
      intro other rest left stopped leftStopped equal
      have kind := same_kind standard equal
      cases other with
      | number held =>
          simp only [text, canonicalJSON] at equal
          obtain ⟨same, isLeft⟩ := number_reads standard stopped leftStopped equal
          exact ⟨⟨held, rfl, same⟩, isLeft⟩
      | bool value => cases value <;> cases kind
      | _ => cases kind
  | string value =>
      intro other rest left _ _ equal
      have kind := same_kind standard equal
      cases other with
      | string held =>
          simp only [text, canonicalJSON, standard.text] at equal
          obtain ⟨same, isLeft⟩ := quote_reads equal
          exact ⟨by rw [same, SameJson], isLeft⟩
      | bool value => cases value <;> cases kind
      | _ => cases kind
  | array items ih =>
      intro other rest left _ _ equal
      have kind := same_kind standard equal
      cases other with
      | array others =>
          simp only [text_array, List.cons_append, List.cons.injEq, true_and] at equal
          obtain ⟨all, isLeft⟩ := list_reads comma_ends bracket_ends (by decide) (text_opens standard) items ih
            others equal
          exact ⟨⟨others, rfl, (same_items_iff js items others).mpr all⟩, isLeft⟩
      | bool value => cases value <;> cases kind
      | _ => cases kind
  | object fields ih =>
      intro other rest left _ _ equal
      have kind := same_kind standard equal
      cases other with
      | object others =>
          have sorted := List.perm_insertionSort (fun a b : String × Json => FileNamespace.textLe a.1 b.1 = true)
          simp only [text_object, List.cons_append, List.cons.injEq, true_and] at equal
          obtain ⟨all, isLeft⟩ := list_reads comma_ends brace_ends (by decide) (field_opens standard)
            (inOrder fields) (fun field member => field_reads standard (ih field ((sorted fields).subset member)))
            (inOrder others) equal
          -- the fields as they stand in the first object meet those of the second in some order
          obtain ⟨aligned, alignedAll, perm⟩ := List.perm_comp_forall₂ (sorted fields).symm all
          exact ⟨⟨others, rfl, (same_fields_iff js fields others).mpr ⟨aligned, alignedAll, perm.trans (sorted others)⟩⟩,
            isLeft⟩
      | bool value => cases value <;> cases kind
      | _ => cases kind

theorem canonical_same (standard : Stringify js) {value other : Json}
    (equal : canonicalJSON js value = canonicalJSON js other) : SameJson js value other := by
  have texts : text js value ++ [] = text js other ++ [] := by rw [text, text, equal]
  exact (value_reads standard value other [] [] (stopped_nil _) (stopped_nil _) texts).1

end Complete

/-! A canonical form. -/
section Canonical

/-- The texts are the same exactly for values that differ in nothing but the order of keys. -/
theorem canonical_form (js : Builtins) (standard : Stringify js) (value other : Json) (isKeyed : keyed value = true) :
    canonicalJSON js value = canonicalJSON js other ↔ SameJson js value other :=
  ⟨canonical_same standard, same_canonical value other isKeyed⟩

/-- Two numbers have texts of their own. -/
def smallNumbers : Builtins where
  quote := quote
  number value := if value = 1 then "1" else "2.5"
  sha256 := id
  compile _ := none

theorem small_standard : Stringify smallNumbers := by
  refine ⟨fun _ => rfl, fun value => ?_⟩
  have each : ∀ numeral ∈ ["1", "2.5"], numeral ≠ "" ∧ ∀ c ∈ numeral.toList, isNumeral c = true := by simp [isNumeral]
  refine each _ ?_
  simp only [smallNumbers]
  split <;> simp

theorem keys_in_any_order :
    canonicalJSON smallNumbers (.object [("b", .number 1), ("a", .array [.string "\"", .null])]) =
      canonicalJSON smallNumbers (.object [("a", .array [.string "\"", .null]), ("b", .number 1)]) :=
  (canonical_form smallNumbers small_standard _ _ (by decide)).mpr
    ⟨_, rfl, [("a", .array [.string "\"", .null])], _, [], rfl, ⟨_, rfl, rfl⟩, [], _, [], rfl,
      ⟨_, rfl, _, _, rfl, rfl, _, _, rfl, rfl, rfl⟩, rfl⟩

end Canonical

end Countinghouse.CanonicalJson
