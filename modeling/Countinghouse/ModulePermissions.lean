import Mathlib.Data.List.Sort
import Countinghouse.FileNamespace
import Countinghouse.JsonValues
import Countinghouse.PlainObject

/-!
lib/module-permissions.js: what a module declares in its package.json, and how the operator's
policy narrows it. The declaration, the entry of the policy and the ceilings are parsed JSON.
An access of "r" or "rw" may stand in brackets: a list of one text has that text for its key. An access,
or the name of a variable, that has no text at all ends the parser or the narrowing with an error.
-/

namespace Countinghouse.ModulePermissions

open JsonValues PlainObject
open RedisMetering (Json)

/-- The functions of JavaScript that are left open. -/
structure Builtins where
  toLowerCase : String → String
  /-- `String(value)`, of a value that has a text. -/
  text : Json → String
  stringify : Json → String

/-! Texts and paths. -/
section Paths

def startsWith (text start : String) : Bool := start.toList.isPrefixOf text.toList

def endsWith (text tail : String) : Bool := tail.toList.isSuffixOf text.toList

/-- `text.split('/')` -/
def split (text : String) : List String := (text.toList.splitOn '/').map String.ofList

def isAbsolute (path : String) : Bool := startsWith path "/"

/-- One segment of `normalizeString` -/
def normalizeSegment (rooted : Bool) (out : List String) (segment : String) : List String :=
  if segment = "" ∨ segment = "." then out
  else if segment = ".." then
    match out.getLast? with
    | some last => if last = ".." then out ++ [".."] else out.dropLast
    | none => if rooted then [] else [".."]
  else out ++ [segment]

/-- `path.posix.normalize` -/
def normalize (path : String) : String :=
  if path = "" then "."
  else
    let text := "/".intercalate ((split path).foldl (normalizeSegment (isAbsolute path)) [])
    if text = "" then if isAbsolute path then "/" else if endsWith path "/" then "./" else "."
    else (if isAbsolute path then "/" else "") ++ text ++ if endsWith path "/" then "/" else ""

/-- `length` of a text -/
def textLength (text : String) : Nat := (FileNamespace.units text).length

/-- `inside` of lib/fs-broker/namespace.js -/
def inside (path root : String) : Bool :=
  path = root || startsWith path (if root = "/" then "/" else root ++ "/")

end Paths

/-! The declaration. -/
section Declaration

structure FsEntry where
  path : String
  access : Json

structure NetEntry where
  host : String
  ports : Option (List Json)

structure Declared where
  fs : List FsEntry
  net : List NetEntry
  env : List String
  limits : Table Nat

def DEFAULT_LIMITS : Table Nat :=
  [("heapMb", 256), ("externalMb", 256), ("maxBlockMs", 10000), ("diskMb", 1024), ("diskEntries", 100000)]

def LIMIT_KEYS : List String := DEFAULT_LIMITS.map Prod.fst

def RESERVED : List String := ["/app", "/data", "/tmp"]

def isReserved (path : String) : Bool :=
  path = "/" || RESERVED.any fun reserved => path = reserved || startsWith path (reserved ++ "/")

mutual

/-- `ACCESS_RANK[access]` -/
def accessRank : Json → Option Nat
  | .string text => if text = "r" then some 1 else if text = "rw" then some 2 else none
  | .array items => onlyRank items
  | _ => none

def onlyRank : List Json → Option Nat
  | [item] => accessRank item
  | _ => none

end

/-- `Object.prototype.hasOwnProperty.call(ACCESS_RANK, access)`, with the rank. -/
def rankOf (access : Json) : Except String (Option Nat) :=
  if textless access then .error NO_TEXT else .ok (accessRank access)

/-- What is taken, and the complaints about the rest. -/
def parted {Taken : Type} (results : List (Except String Taken)) : List Taken × List String :=
  (results.filterMap fun result => match result with
    | .ok taken => some taken
    | .error _ => none,
   results.filterMap fun result => match result with
    | .ok _ => none
    | .error problem => some problem)

/-- The items that `parse` takes, and its complaints about the others. -/
def sift {Item Taken : Type} (parse : Nat → Item → Except String Taken) (items : List Item) : List Taken × List String :=
  parted (items.zipIdx.map fun item => parse item.2 item.1)

/-- `sift`, where a turn may throw. -/
def siftOrThrow {Item Taken : Type} (parse : Nat → Item → Except String (Except String Taken)) (items : List Item) :
    Except String (List Taken × List String) :=
  match items.zipIdx.mapM fun item => parse item.2 item.1 with
  | .error message => .error message
  | .ok results => .ok (parted results)

def position (list : String) (i : Nat) : String := "countinghouse.permissions." ++ list ++ "[" ++ toString i ++ "]"

def parseFsEntry (i : Nat) (e : Json) : Except String (Except String FsEntry) :=
  let place := position "fs" i
  match memberOrNull e "path" with
  | .string p =>
      if !isAbsolute p then .ok (.error (place ++ ".path \"" ++ p ++ "\" must be absolute"))
      else if ".." ∈ split p ∨ normalize p ≠ p ∨ 1 < textLength p ∧ endsWith p "/" = true then
        .ok (.error (place ++ ".path \"" ++ p ++ "\" must be normalized (no \"..\", no trailing \"/\")"))
      else if isReserved p then
        .ok (.error (place ++ ".path \"" ++ p ++
          "\" is reserved: \"/\" and /app, /data, /tmp belong to the module's own root"))
      else
        match rankOf (memberOrNull e "access") with
        | .error message => .error message
        | .ok none => .ok (.error (place ++ ".access must be \"r\" or \"rw\""))
        | .ok (some _) => .ok (.ok ⟨p, memberOrNull e "access"⟩)
  | _ => .ok (.error (place ++ ".path must be a string"))

def parseFs (list : Json) : Except String (List FsEntry × List String) :=
  match list with
  | .null => .ok ([], [])
  | .array items => siftOrThrow parseFsEntry items
  | _ => .ok ([], ["countinghouse.permissions.fs must be an array"])

def isHostChar (c : Char) : Bool := c.isDigit || ('a' ≤ c && c ≤ 'z')

/-- `LABEL` -/
def isLabel (label : List Char) : Bool :=
  label.all (fun c => isHostChar c || c == '-') && label.head?.any isHostChar && label.getLast?.any isHostChar

/-- `HOST` -/
def isHost (text : String) : Bool :=
  ((if startsWith text "*." then text.toList.drop 2 else text.toList).splitOn '.').all isLabel

def isPort (port : Json) : Bool := (positiveInteger port).any fun number => number ≤ 65535

def parseNetEntry (js : Builtins) (i : Nat) (e : Json) : Except String NetEntry :=
  let place := position "net" i
  match memberOrNull e "host" with
  | .string host =>
      if !isHost (js.toLowerCase host) then
        .error (place ++ ".host must be a hostname, optionally starting with \"*.\"")
      else
        match memberOrNull e "ports" with
        | .null => .ok ⟨js.toLowerCase host, none⟩
        | .array ports =>
            if ports.all isPort then .ok ⟨js.toLowerCase host, some ports⟩
            else .error (place ++ ".ports must be an array of integers 1-65535")
        | _ => .error (place ++ ".ports must be an array of integers 1-65535")
  | _ => .error (place ++ ".host must be a hostname, optionally starting with \"*.\"")

def parseNet (js : Builtins) (list : Json) : List NetEntry × List String :=
  match list with
  | .null => ([], [])
  | .array items => sift (parseNetEntry js) items
  | _ => ([], ["countinghouse.permissions.net must be an array"])

def isEnvStart (c : Char) : Bool := c == '_' || ('A' ≤ c && c ≤ 'Z')

/-- `ENV_NAME` -/
def isEnvName (name : String) : Bool :=
  name.toList.head?.any isEnvStart && name.toList.all fun c => isEnvStart c || c.isDigit

def parseEnvName (js : Builtins) (i : Nat) (name : Json) : Except String (Except String String) :=
  let problem := position "env" i ++ " \"" ++ js.text name ++ "\" is not a valid environment variable name"
  match name with
  | .string text => .ok (if isEnvName text then .ok text else .error problem)
  | _ => if textless name then .error NO_TEXT else .ok (.error problem)

def parseEnv (js : Builtins) (list : Json) : Except String (List String × List String) :=
  match list with
  | .null => .ok ([], [])
  | .array items => siftOrThrow (parseEnvName js) items
  | _ => .ok ([], ["countinghouse.permissions.env must be an array"])

def parseLimit (_ : Nat) (entry : String × Json) : Except String (String × Nat) :=
  if entry.1 ∉ LIMIT_KEYS then
    .error ("countinghouse.permissions.limits." ++ entry.1 ++ " is not a known limit (" ++ ", ".intercalate LIMIT_KEYS ++
      ")")
  else
    match positiveInteger entry.2 with
    | some limit => .ok (entry.1, limit)
    | none => .error ("countinghouse.permissions.limits." ++ entry.1 ++ " must be a positive integer")

def parseLimits (obj : Json) : Table Nat × List String :=
  match obj with
  | .null => ([], [])
  | .object fields => sift parseLimit fields
  | _ => ([], ["countinghouse.permissions.limits must be an object"])

/-- `pkg.countinghouse.permissions` -/
def permissionsOf (pkg : Json) : Json := memberOrNull (memberOrNull pkg "countinghouse") "permissions"

/-- What is declared, and the problems. -/
def parseDeclaration (js : Builtins) (pkg : Json) : Except String (Declared × List String) :=
  match permissionsOf pkg with
  | .null => .ok (⟨[], [], [], []⟩, [])
  | .object fields => do
      let raw := Json.object fields
      let fs ← parseFs (memberOrNull raw "fs")
      let net := parseNet js (memberOrNull raw "net")
      let env ← parseEnv js (memberOrNull raw "env")
      let limits := parseLimits (memberOrNull raw "limits")
      .ok (⟨fs.1, net.1, env.1, limits.1⟩, fs.2 ++ net.2 ++ env.2 ++ limits.2)
  | _ => .ok (⟨[], [], [], []⟩, ["countinghouse.permissions must be an object"])

end Declaration

/-! Narrowing. -/
section Narrowing

/-- One extra leading label. -/
def hostMatches (pattern host : String) : Bool :=
  if !startsWith pattern "*." then pattern = host
  else
    let suffix := pattern.toList.drop 1
    let label := host.toList.take (host.toList.length - suffix.length)
    suffix.isSuffixOf host.toList && !label.isEmpty && !label.contains '.'

def hostAllowed (js : Builtins) (net : List NetEntry) (hostname : String) (port : Json) : Bool :=
  net.any fun e => hostMatches e.host (js.toLowerCase hostname) && e.ports.all fun ports => includes ports port

def isValidPolicyPath (p : String) : Bool :=
  isAbsolute p && !(split p).contains ".." && normalize p = p && (p = "/" || !endsWith p "/")

/-- The declared entry is at the path or above it, and its access goes as far. -/
def covers (path : String) (rank : Nat) (d : FsEntry) : Bool :=
  (path = d.path || startsWith path (d.path ++ "/")) && (accessRank d.access).any fun declared => rank ≤ declared

def narrowFsEntry (declared : List FsEntry) (w : Json) : Except String (Option FsEntry) :=
  match memberOrNull w "path" with
  | .string path =>
      if isValidPolicyPath path then
        match rankOf (memberOrNull w "access") with
        | .error message => .error message
        | .ok none => .ok none
        | .ok (some rank) => .ok (if declared.any (covers path rank) then some ⟨path, memberOrNull w "access"⟩ else none)
      else .ok none
  | _ => .ok none

def portsOf (w : Json) : Option (List Json) :=
  match memberOrNull w "ports" with
  | .array ports => some ports
  | _ => none

/-- The declared entry matches the host, and has no ports or all of these. -/
def coversHost (host : String) (ports : Option (List Json)) (d : NetEntry) : Bool :=
  hostMatches d.host host && d.ports.all fun declared => ports.any fun ports => ports.all (includes declared)

def narrowNetEntry (js : Builtins) (declared : List NetEntry) (w : Json) : Option NetEntry :=
  match memberOrNull w "host" with
  | .string text =>
      if !startsWith (js.toLowerCase text) "*." && declared.any (coversHost (js.toLowerCase text) (portsOf w)) then
        some ⟨js.toLowerCase text, portsOf w⟩
      else none
  | _ => none

/-- `(wanted || []).forEach` -/
def wantedItems (wanted : Json) : Except String (List Json) :=
  match wanted with
  | .array items => .ok items
  | _ => if truthy wanted then .error "(wanted || []).forEach is not a function" else .ok []

def ignoredText (js : Builtins) (kind : String) (w : Json) : String :=
  kind ++ " " ++ js.stringify w ++ " is wider than the declaration and was ignored"

/-- The loops of `narrowFs` and `narrowNet`, over what one turn of them takes. -/
def narrowList {Taken : Type} (js : Builtins) (kind : String) (turn : Json → Except String (Option Taken))
    (wanted : Json) : Except String (List Taken × List String) :=
  match wantedItems wanted with
  | .error message => .error message
  | .ok items =>
      match items.mapM turn with
      | .error message => .error message
      | .ok turns =>
          .ok (turns.filterMap id, ((items.zip turns).filter fun w => w.2.isNone).map fun w => ignoredText js kind w.1)

def narrowFs (js : Builtins) (declared : List FsEntry) (wanted : Json) : Except String (List FsEntry × List String) :=
  narrowList js "fs" (narrowFsEntry declared) wanted

def narrowNet (js : Builtins) (declared : List NetEntry) (wanted : Json) : Except String (List NetEntry × List String) :=
  narrowList js "net" (fun w => .ok (narrowNetEntry js declared w)) wanted

def narrowLimit (requested : Table Nat) (ceilings entryLimits : Json) (limit : String × Nat) : String × Nat :=
  let cap := (positiveInteger (memberOrNull ceilings limit.1)).getD limit.2
  let ceiling := match positiveInteger (memberOrNull entryLimits limit.1) with
    | some entryLimit => min cap entryLimit
    | none => cap
  (limit.1, match requested.lookup limit.1 with
    | some request => min request ceiling
    | none => ceiling)

def narrowLimits (requested : Table Nat) (ceilings entryLimits : Json) : Table Nat :=
  DEFAULT_LIMITS.map (narrowLimit requested ceilings entryLimits)

structure Narrowed where
  fs : List FsEntry
  net : List NetEntry
  envNames : List String
  envOverrides : Table String
  limits : Table Nat
  ignored : List String
  approved : Bool

/-- The own properties of an object or a list. -/
def properties : Json → List (String × Json)
  | .object fields => fields
  | .array items => items.zipIdx.map fun item => (toString item.2, item.1)
  | _ => []

def asText (entry : String × Json) : Option (String × String) :=
  match entry.2 with
  | .string text => some (entry.1, text)
  | _ => none

def narrow (js : Builtins) (declared : Declared) (entry ceilings : Json) (mode : String) : Except String Narrowed :=
  let limits := narrowLimits declared.limits ceilings (memberOrNull entry "limits")
  let needsApproval := !declared.fs.isEmpty || !declared.net.isEmpty || !declared.env.isEmpty
  if isNull entry then
    if mode ≠ "enforce" then .ok ⟨declared.fs, declared.net, declared.env, [], limits, [], !needsApproval⟩
    else .ok ⟨[], [], [], [], limits, [], !needsApproval⟩
  else
    let envEntry := properties (memberOrNull entry "env")
    let isDeclared := fun property : String × Json => declared.env.contains property.1
    let undeclared := (envEntry.filter fun property => !isDeclared property).map fun property =>
      "env " ++ property.1 ++ " is not declared and was ignored"
    let envOverrides := (envEntry.filter isDeclared).filterMap asText
    if sameValue (memberOrNull entry "approve") (.string "as-declared") then
      .ok ⟨declared.fs, declared.net, declared.env, envOverrides, limits, undeclared, true⟩
    else
      match narrowFs js declared.fs (memberOrNull entry "fs") with
      | .error message => .error message
      | .ok fs =>
          match narrowNet js declared.net (memberOrNull entry "net") with
          | .error message => .error message
          | .ok net =>
              .ok ⟨fs.1, net.1, (envEntry.filter isDeclared).map Prod.fst, envOverrides, limits,
                undeclared ++ fs.2 ++ net.2, true⟩

end Narrowing

/-! What a search finds in a list that is sorted by size, the largest first. -/
section Foremost

variable {Item : Type} (size : Item → Nat) (test : Item → Bool)

/-- No item that passes the test is larger, and none before it as large. -/
def Foremost (items : List Item) (item : Item) : Prop :=
  ∃ before after, items = before ++ item :: after ∧ test item = true ∧
    (∀ other ∈ before, test other = true → size other < size item) ∧
      ∀ other ∈ after, test other = true → size other ≤ size item

variable {size test}

theorem foremost_mem {items : List Item} {item : Item} (foremost : Foremost size test items item) : item ∈ items := by
  obtain ⟨before, after, rfl, -⟩ := foremost
  simp

theorem foremost_filter {items : List Item} {item : Item} {kept : Item → Bool} (foremost : Foremost size test items item)
    (isKept : kept item = true) : Foremost size test (items.filter kept) item := by
  obtain ⟨before, after, rfl, passes, first, last⟩ := foremost
  refine ⟨before.filter kept, after.filter kept, by simp [isKept], passes, ?_, ?_⟩
  · exact fun other member => first other (List.mem_of_mem_filter member)
  · exact fun other member => last other (List.mem_of_mem_filter member)

theorem foremost_max {items : List Item} {item other : Item} (foremost : Foremost size test items item)
    (member : other ∈ items) (passes : test other = true) : size other ≤ size item := by
  obtain ⟨before, after, rfl, -, first, last⟩ := foremost
  rcases List.mem_append.mp member with early | late
  · exact (first other early passes).le
  · rcases List.mem_cons.mp late with rfl | later
    · exact Nat.le_refl _
    · exact last other later passes

theorem sorted_by_size (items : List Item) :
    (items.insertionSort fun a b => size b ≤ size a).Pairwise fun a b => size b ≤ size a :=
  haveI : Std.Total fun a b : Item => size b ≤ size a := ⟨fun _ _ => Nat.le_total _ _⟩
  haveI : IsTrans Item fun a b => size b ≤ size a := ⟨fun _ _ _ first second => Nat.le_trans second first⟩
  List.pairwise_insertionSort _ items

theorem find_inserted (item : Item) (items : List Item) (sorted : items.Pairwise fun a b => size b ≤ size a) :
    (items.orderedInsert (fun a b => size b ≤ size a) item).find? test =
      match items.find? test with
      | some found => if test item = true ∧ size found ≤ size item then some item else some found
      | none => if test item = true then some item else none := by
  induction items with
  | nil => cases passes : test item <;> simp [passes]
  | cons head rest ih =>
      obtain ⟨largest, sorted⟩ := List.pairwise_cons.mp sorted
      by_cases before : size head ≤ size item
      · rw [List.orderedInsert_cons, if_pos before]
        cases passes : test item with
        | false =>
            rw [List.find?_cons_of_neg (by simp [passes])]
            cases (head :: rest).find? test <;> simp
        | true =>
            rw [List.find?_cons_of_pos passes]
            cases found : (head :: rest).find? test with
            | none => simp
            | some other =>
                have smaller : size other ≤ size item := by
                  rcases List.mem_cons.mp (List.mem_of_find?_eq_some found) with rfl | later
                  · exact before
                  · exact (largest other later).trans before
                simp [smaller]
      · rw [List.orderedInsert_cons, if_neg before]
        cases passes : test head with
        | true => simp [passes, before]
        | false =>
            rw [List.find?_cons_of_neg (by simp [passes]), List.find?_cons_of_neg (by simp [passes])]
            exact ih sorted

theorem foremost_cons (head : Item) (rest : List Item) (item : Item) :
    Foremost size test (head :: rest) item ↔
      (head = item ∧ test head = true ∧ ∀ other ∈ rest, test other = true → size other ≤ size head) ∨
        (Foremost size test rest item ∧ (test head = true → size head < size item)) := by
  constructor
  · rintro ⟨before, after, split, passes, first, last⟩
    cases before with
    | nil =>
        simp only [List.nil_append, List.cons.injEq] at split
        obtain ⟨rfl, rfl⟩ := split
        exact Or.inl ⟨rfl, passes, last⟩
    | cons other before =>
        simp only [List.cons_append, List.cons.injEq] at split
        obtain ⟨rfl, rfl⟩ := split
        exact Or.inr ⟨⟨before, after, rfl, passes, fun other member => first other (List.mem_cons_of_mem _ member), last⟩,
          first head List.mem_cons_self⟩
  · rintro (⟨rfl, passes, last⟩ | ⟨⟨before, after, rfl, passes, first, last⟩, smaller⟩)
    · exact ⟨[], rest, rfl, passes, by simp, last⟩
    · refine ⟨head :: before, after, rfl, passes, ?_, last⟩
      intro other member is
      rcases List.mem_cons.mp member with rfl | later
      · exact smaller is
      · exact first other later is

theorem find_largest_iff (items : List Item) (item : Item) :
    (items.insertionSort fun a b => size b ≤ size a).find? test = some item ↔ Foremost size test items item := by
  induction items generalizing item with
  | nil =>
      constructor
      · intro found
        cases found
      · rintro ⟨before, after, split, -⟩
        simp at split
  | cons head rest ih =>
      rw [List.insertionSort_cons, find_inserted head _ (sorted_by_size rest), foremost_cons]
      cases inRest : (rest.insertionSort fun a b => size b ≤ size a).find? test with
      | none =>
          have refused : ∀ other ∈ rest, test other ≠ true := fun other member =>
            List.find?_eq_none.mp inRest other ((List.mem_insertionSort _).mpr member)
          constructor
          · intro found
            obtain ⟨passes, same⟩ : test head = true ∧ head = item := by simpa using found
            exact Or.inl ⟨same, passes, fun other member is => absurd is (refused other member)⟩
          · rintro (⟨rfl, passes, -⟩ | ⟨isItem, -⟩)
            · simp [passes]
            · have found := (ih item).mpr isItem
              rw [inRest] at found
              cases found
      | some other =>
          have isOther := (ih other).mp inRest
          by_cases larger : test head = true ∧ size other ≤ size head
          · simp only [larger, and_self, ↓reduceIte, Option.some.injEq]
            constructor
            · intro same
              exact Or.inl ⟨same, trivial, fun other member is => (foremost_max isOther member is).trans larger.2⟩
            · rintro (⟨same, -⟩ | ⟨isItem, smaller⟩)
              · exact same
              · have found := (ih item).mpr isItem
                rw [inRest] at found
                cases found
                exact absurd larger.2 (Nat.not_le_of_lt (smaller trivial))
          · simp only [larger, ↓reduceIte, Option.some.injEq]
            constructor
            · rintro rfl
              exact Or.inr ⟨isOther, fun passes => Nat.lt_of_not_le fun atLeast => larger ⟨passes, atLeast⟩⟩
            · rintro (⟨rfl, passes, last⟩ | ⟨isItem, -⟩)
              · obtain ⟨_, _, _, otherPasses, _⟩ := isOther
                have isOther := (ih other).mp inRest
                exact absurd ⟨passes, last other (foremost_mem isOther) otherPasses⟩ larger
              · have found := (ih item).mpr isItem
                rw [inRest] at found
                exact Option.some.inj found

theorem foremost_unique {items : List Item} {item other : Item} (foremost : Foremost size test items item)
    (also : Foremost size test items other) : item = other := by
  have first := (find_largest_iff items item).mpr foremost
  rw [(find_largest_iff items other).mpr also] at first
  exact (Option.some.inj first).symm

end Foremost

/-! Paths inside a root other than `/`. -/
section Inside

theorem inside_iff {root : String} (proper : root ≠ "/") (path : String) :
    inside path root = true ↔ path = root ∨ (root.toList ++ ['/']) <+: path.toList := by
  simp [inside, startsWith, proper]

theorem inside_self (path : String) : inside path path = true := by simp [inside]

theorem inside_trans {path middle root : String} (middleProper : middle ≠ "/") (proper : root ≠ "/")
    (within : inside path middle = true) (above : inside middle root = true) : inside path root = true := by
  rw [inside_iff proper]
  rcases (inside_iff middleProper path).mp within with rfl | below
  · exact (inside_iff proper _).mp above
  · right
    rcases (inside_iff proper middle).mp above with rfl | deeper
    · exact below
    · exact deeper.trans ((List.prefix_append _ _).trans below)

/-- Of two roots that hold one path, one holds the other. -/
theorem inside_or_inside {path root other : String} (proper : root ≠ "/") (otherProper : other ≠ "/")
    (within : inside path root = true) (otherWithin : inside path other = true) :
    inside root other = true ∨ inside other root = true := by
  have nested : ∀ a b : String, a ≠ "/" → (a.toList ++ ['/']) <+: (b.toList ++ ['/']) → inside b a = true := by
    intro a b aProper shorter
    rw [inside_iff aProper]
    rcases List.prefix_concat_iff.mp shorter with same | below
    · exact Or.inl (String.toList_inj.mp (List.append_cancel_right same)).symm
    · exact Or.inr below
  rcases (inside_iff proper path).mp within with rfl | below
  · exact Or.inl otherWithin
  · rcases (inside_iff otherProper path).mp otherWithin with rfl | otherBelow
    · exact Or.inr within
    · rcases List.prefix_or_prefix_of_prefix below otherBelow with shorter | longer
      · exact Or.inr (nested root other proper shorter)
      · exact Or.inl (nested other root otherProper longer)

theorem text_length_lt {front text : String} (below : (front.toList ++ ['/']) <+: text.toList) :
    textLength front < textLength text := by
  obtain ⟨rest, whole⟩ := below
  simp only [textLength, FileNamespace.units, ← whole, List.flatMap_append, List.length_append]
  have slash : (List.flatMap (fun c : Char => if c.toNat < 0x10000 then [c.toNat]
      else [0xD800 + (c.toNat - 0x10000) / 0x400, 0xDC00 + (c.toNat - 0x10000) % 0x400]) ['/']).length = 1 := by decide
  omega

theorem text_length_top {path : String} (absolute : isAbsolute path = true) (proper : path ≠ "/") :
    textLength "/" < textLength path := by
  obtain ⟨rest, whole⟩ := List.isPrefixOf_iff_prefix.mp absolute
  cases rest with
  | nil => exact absurd (String.toList_inj.mp (by simpa using whole.symm)) proper
  | cons c rest =>
      have top : textLength "/" = 1 := by decide
      have slash : "/".toList = ['/'] := rfl
      rw [top, textLength, FileNamespace.units, ← whole, slash]
      simp only [List.cons_append, List.nil_append, List.flatMap_cons, List.length_append]
      split <;> split <;> simp only [List.length_cons, List.length_nil] <;> omega

/-- Of two roots that hold one path, the one with the longer text lies in the other. -/
theorem inside_of_longer {path root other : String} (absolute : isAbsolute root = true) (proper : root ≠ "/")
    (within : inside path root = true) (otherWithin : inside path other = true)
    (longer : textLength root ≤ textLength other) : inside other root = true := by
  have otherProper : other ≠ "/" := by
    rintro rfl
    exact absurd longer (Nat.not_le_of_lt (text_length_top absolute proper))
  rcases inside_or_inside proper otherProper within otherWithin with lower | lower
  · rcases (inside_iff otherProper root).mp lower with rfl | below
    · exact inside_self _
    · exact absurd longer (Nat.not_le_of_lt (text_length_lt below))
  · exact lower

/-- The test of `narrowFs` for a declared root other than `/`. -/
theorem covers_iff {path : String} {rank : Nat} {d : FsEntry} (proper : d.path ≠ "/") :
    covers path rank d = true ↔
      inside path d.path = true ∧ ∃ declared, accessRank d.access = some declared ∧ rank ≤ declared := by
  simp [covers, inside, proper, Option.any_eq_true]

end Inside

/-! The entry that a namespace goes by at a path. -/
section Effective

/-- What `resolve` finds when the entries are the roots: the longest that holds the path, and among equals the first. -/
def governing (entries : List FsEntry) (path : String) : Option FsEntry :=
  (entries.insertionSort fun a b => textLength b.path ≤ textLength a.path).find? fun e => inside path e.path

/-- `d.access === 'rw'` -/
def writable (e : FsEntry) : Bool := sameValue e.access (.string "rw")

/-- No access, reading, or reading and writing. -/
def effective (entries : List FsEntry) (path : String) : Nat :=
  match governing entries path with
  | none => 0
  | some e => if writable e then 2 else 1

/-- No entry that holds the path is longer, and none before this one as long. -/
abbrev Governs (entries : List FsEntry) (path : String) (e : FsEntry) : Prop :=
  Foremost (fun e => textLength e.path) (fun e => inside path e.path) entries e

theorem governing_iff (entries : List FsEntry) (path : String) (e : FsEntry) :
    governing entries path = some e ↔ Governs entries path e := find_largest_iff entries e

theorem governs_inside {entries : List FsEntry} {path : String} {e : FsEntry} (governs : Governs entries path e) :
    inside path e.path = true := by
  obtain ⟨_, _, _, within, _⟩ := governs
  exact within

/-- At least one entry that holds the path governs it. -/
theorem governs_exists {entries : List FsEntry} {path : String} {e : FsEntry} (member : e ∈ entries)
    (within : inside path e.path = true) : ∃ other, Governs entries path other := by
  cases found : governing entries path with
  | none =>
      have refused := List.find?_eq_none.mp found e ((List.mem_insertionSort _).mpr member)
      exact absurd within refused
  | some other => exact ⟨other, (governing_iff entries path other).mp found⟩

/-- An entry that governs a path governs every path between its own and that one. -/
theorem governs_between {entries : List FsEntry} {path between : String} {e : FsEntry}
    (proper : ∀ e ∈ entries, e.path ≠ "/") (betweenProper : between ≠ "/") (governs : Governs entries path e)
    (above : inside path between = true) (below : inside between e.path = true) : Governs entries between e := by
  obtain ⟨before, after, rfl, _, first, last⟩ := governs
  refine ⟨before, after, rfl, below, ?_, ?_⟩
  · intro other member within
    exact first other member (inside_trans betweenProper (proper other (by simp [member])) above within)
  · intro other member within
    exact last other member (inside_trans betweenProper (proper other (by simp [member])) above within)

/-- A writable entry of the first list and one of the second that is not, one at or below the other, each of which is what
its list goes by at the lower one's path. -/
def Conflict (wanted declared : List FsEntry) : Prop :=
  ∃ w ∈ wanted, ∃ d ∈ declared, writable w = true ∧ writable d = false ∧
    ((inside d.path w.path = true ∧ Governs wanted d.path w ∧ Governs declared d.path d) ∨
      (inside w.path d.path = true ∧ Governs wanted w.path w ∧ Governs declared w.path d))

theorem effective_of_governs {entries : List FsEntry} {path : String} {e : FsEntry} (governs : Governs entries path e) :
    effective entries path = if writable e then 2 else 1 := by
  simp only [effective, (governing_iff entries path e).mpr governs]

/-- Where every entry of the first list lies in one of the second, conflicts are all that can widen. -/
theorem effective_le_iff {wanted declared : List FsEntry} (wantedProper : ∀ w ∈ wanted, w.path ≠ "/")
    (declaredProper : ∀ d ∈ declared, d.path ≠ "/")
    (covered : ∀ w ∈ wanted, ∃ d ∈ declared, inside w.path d.path = true) :
    (∀ path, effective wanted path ≤ effective declared path) ↔ ¬ Conflict wanted declared := by
  constructor
  · rintro narrower ⟨w, _, d, _, isWritable, notWritable, nested⟩
    have clash : ∀ path, Governs wanted path w → Governs declared path d → False := by
      intro path byWanted byDeclared
      have := narrower path
      simp [effective_of_governs byWanted, effective_of_governs byDeclared, isWritable, notWritable] at this
    rcases nested with ⟨_, byWanted, byDeclared⟩ | ⟨_, byWanted, byDeclared⟩
    · exact clash d.path byWanted byDeclared
    · exact clash w.path byWanted byDeclared
  · intro clear path
    cases found : governing wanted path with
    | none => simp [effective, found]
    | some w =>
        have byWanted := (governing_iff wanted path w).mp found
        have isWanted := foremost_mem byWanted
        obtain ⟨above, isAbove, holds⟩ := covered w isWanted
        obtain ⟨d, byDeclared⟩ := governs_exists isAbove (inside_trans (wantedProper w isWanted)
          (declaredProper above isAbove) (governs_inside byWanted) holds)
        have isDeclared := foremost_mem byDeclared
        rw [effective_of_governs byWanted, effective_of_governs byDeclared]
        by_contra wider
        obtain ⟨isWritable, notWritable⟩ : writable w = true ∧ writable d = false := by
          cases ofWanted : writable w <;> cases ofDeclared : writable d <;> simp_all
        -- the lower of the two paths lies between the other one and the path that is wider
        rcases inside_or_inside (wantedProper w isWanted) (declaredProper d isDeclared) (governs_inside byWanted)
          (governs_inside byDeclared) with lower | lower
        · exact clear ⟨w, isWanted, d, isDeclared, isWritable, notWritable, Or.inr ⟨lower,
            governs_between wantedProper (wantedProper w isWanted) byWanted (governs_inside byWanted) (inside_self _),
            governs_between declaredProper (wantedProper w isWanted) byDeclared (governs_inside byWanted) lower⟩⟩
        · exact clear ⟨w, isWanted, d, isDeclared, isWritable, notWritable, Or.inl ⟨lower,
            governs_between wantedProper (declaredProper d isDeclared) byWanted (governs_inside byDeclared) lower,
            governs_between declaredProper (declaredProper d isDeclared) byDeclared (governs_inside byDeclared)
              (inside_self _)⟩⟩

end Effective

/-! What the parser takes, and what a turn of the narrowing loops takes. -/
section Turns

variable (js : Builtins)

theorem mem_parted {Taken : Type} {results : List (Except String Taken)} {taken : Taken} :
    taken ∈ (parted results).1 ↔ .ok taken ∈ results := by
  simp only [parted, List.mem_filterMap]
  constructor
  · rintro ⟨result, isResult, isTaken⟩
    split at isTaken
    · cases isTaken
      exact isResult
    · cases isTaken
  · exact fun isResult => ⟨_, isResult, rfl⟩

theorem mem_sift {Item Taken : Type} {parse : Nat → Item → Except String Taken} {items : List Item} {taken : Taken}
    (member : taken ∈ (sift parse items).1) : ∃ i, ∃ item ∈ items, parse i item = .ok taken := by
  obtain ⟨⟨item, i⟩, isItem, parsed⟩ := List.mem_map.mp (mem_parted.mp member)
  exact ⟨i, item, List.fst_mem_of_mem_zipIdx isItem, parsed⟩

theorem mem_sift_or_throw {Item Taken : Type} {parse : Nat → Item → Except String (Except String Taken)}
    {items : List Item} {results : List Taken × List String} (done : siftOrThrow parse items = .ok results)
    {taken : Taken} (member : taken ∈ results.1) : ∃ i, ∃ item ∈ items, parse i item = .ok (.ok taken) := by
  unfold siftOrThrow at done
  split at done
  · cases done
  · rename_i turns ran
    cases done
    obtain ⟨sameLength, each⟩ := List.forall₂_iff_get.mp (mapM_ok_iff.mp ran)
    obtain ⟨n, small, isTaken⟩ := List.mem_iff_getElem.mp (mem_parted.mp member)
    have parsed := each n (sameLength ▸ small) small
    simp only [List.get_eq_getElem, isTaken] at parsed
    exact ⟨_, _, List.fst_mem_of_mem_zipIdx (List.getElem_mem (sameLength ▸ small)), parsed⟩

theorem parse_fs_entry_proper {i : Nat} {item : Json} {e : FsEntry} (parsed : parseFsEntry i item = .ok (.ok e)) :
    isAbsolute e.path = true ∧ isReserved e.path = false := by
  unfold parseFsEntry at parsed
  split at parsed
  · dsimp only at parsed
    split at parsed
    · cases parsed
    · split at parsed
      · cases parsed
      · split at parsed
        · cases parsed
        · split at parsed
          · cases parsed
          · cases parsed
          · rename_i path _ absolute _ free _ _ _
            cases parsed
            exact ⟨by simpa using absolute, by simpa using free⟩
  · cases parsed

theorem parse_fs_proper {list : Json} {parsed : List FsEntry × List String} (done : parseFs list = .ok parsed) :
    ∀ e ∈ parsed.1, isAbsolute e.path = true ∧ isReserved e.path = false := by
  intro e member
  unfold parseFs at done
  split at done
  · cases done
    cases member
  · obtain ⟨i, item, _, parsed⟩ := mem_sift_or_throw done member
    exact parse_fs_entry_proper parsed
  · cases done
    cases member

/-- What a declaration consists of, when the parser does not throw. -/
theorem parse_declaration_some {pkg : Json} {declared : Declared} {problems : List String}
    (parsed : parseDeclaration js pkg = .ok (declared, problems)) :
    (declared.fs = [] ∨ ∃ list rest, parseFs list = .ok (declared.fs, rest)) ∧
      (declared.limits = [] ∨ ∃ object, declared.limits = (parseLimits object).1) := by
  unfold parseDeclaration at parsed
  split at parsed
  · cases parsed
    exact ⟨Or.inl rfl, Or.inl rfl⟩
  · rename_i fields _
    cases ofFs : parseFs (memberOrNull (.object fields) "fs") with
    | error message => simp [ofFs, bind, Except.bind] at parsed
    | ok fs =>
        cases ofEnv : parseEnv js (memberOrNull (.object fields) "env") with
        | error message => simp [ofFs, ofEnv, bind, Except.bind] at parsed
        | ok env =>
            simp only [ofFs, ofEnv, bind, Except.bind, Except.ok.injEq, Prod.mk.injEq] at parsed
            obtain ⟨rfl, -⟩ := parsed
            exact ⟨Or.inr ⟨_, fs.2, ofFs⟩, Or.inr ⟨_, rfl⟩⟩
  · cases parsed
    exact ⟨Or.inl rfl, Or.inl rfl⟩

theorem declared_proper {pkg : Json} {declared : Declared} {problems : List String}
    (parsed : parseDeclaration js pkg = .ok (declared, problems)) :
    ∀ d ∈ declared.fs, isAbsolute d.path = true ∧ d.path ≠ "/" := by
  intro d member
  rcases (parse_declaration_some js parsed).1 with none | ⟨list, rest, isFs⟩
  · rw [none] at member
    cases member
  · obtain ⟨absolute, free⟩ := parse_fs_proper isFs d member
    refine ⟨absolute, ?_⟩
    intro top
    rw [top] at free
    cases free

/-- What the policy asks for in one item, whatever the module has declared. -/
def askedEntry (w : Json) : Option FsEntry :=
  match memberOrNull w "path" with
  | .string path =>
      if isValidPolicyPath path && (accessRank (memberOrNull w "access")).isSome then some ⟨path, memberOrNull w "access"⟩
      else none
  | _ => none

/-- Some declared entry is at the entry's path or above it, with an access that goes as far. -/
def coveredBy (declared : List FsEntry) (e : FsEntry) : Bool :=
  (accessRank e.access).any fun rank => declared.any (covers e.path rank)

/-- A turn that does not throw takes what is asked for and covered. -/
theorem narrow_fs_entry_ok {declared : List FsEntry} {item : Json} {turn : Option FsEntry}
    (done : narrowFsEntry declared item = .ok turn) : turn = (askedEntry item).filter (coveredBy declared) := by
  unfold narrowFsEntry at done
  unfold askedEntry
  split at done
  · rename_i path isPath
    split at done
    · rename_i valid
      unfold rankOf at done
      by_cases noText : textless (memberOrNull item "access") = true
      · simp [noText] at done
      · cases ofAccess : accessRank (memberOrNull item "access") with
        | none => simpa [noText, ofAccess, eq_comm] using done
        | some rank =>
            simp only [noText, ofAccess, Bool.false_eq_true, if_false, Except.ok.injEq] at done
            simp [← done, valid, coveredBy, ofAccess, Option.filter]
    · rename_i invalid
      cases done
      rw [if_neg (by simp [invalid])]
      rfl
  · rename_i noPath
    cases done
    cases isPath : memberOrNull item "path" <;> simp_all

theorem asked_entry_some {item : Json} {e : FsEntry} (is : askedEntry item = some e) :
    (accessRank e.access).isSome = true := by
  unfold askedEntry at is
  split at is
  · split at is
    · rename_i passes
      cases is
      exact (Bool.and_eq_true_iff.mp passes).2
    · cases is
  · cases is

theorem covered_iff {declared : List FsEntry} (proper : ∀ d ∈ declared, isAbsolute d.path = true ∧ d.path ≠ "/")
    (e : FsEntry) :
    coveredBy declared e = true ↔ ∃ rank, accessRank e.access = some rank ∧
      ∃ d ∈ declared, inside e.path d.path = true ∧ ∃ above, accessRank d.access = some above ∧ rank ≤ above := by
  simp only [coveredBy, Option.any_eq_true, List.any_eq_true]
  constructor
  · rintro ⟨rank, isRank, d, member, covering⟩
    exact ⟨rank, isRank, d, member, (covers_iff (proper d member).2).mp covering⟩
  · rintro ⟨rank, isRank, d, member, covering⟩
    exact ⟨rank, isRank, d, member, (covers_iff (proper d member).2).mpr covering⟩

/-- What is covered lies inside a declared entry, and so is a path below `/`. -/
theorem covered_inside {declared : List FsEntry} (proper : ∀ d ∈ declared, isAbsolute d.path = true ∧ d.path ≠ "/")
    {w : FsEntry} (covered : coveredBy declared w = true) :
    (isAbsolute w.path = true ∧ w.path ≠ "/") ∧ ∃ d ∈ declared, inside w.path d.path = true := by
  obtain ⟨rank, -, d, member, within, -⟩ := (covered_iff proper w).mp covered
  obtain ⟨absolute, notTop⟩ := proper d member
  refine ⟨?_, d, member, within⟩
  rcases (inside_iff notTop w.path).mp within with same | below
  · rw [same]
    exact ⟨absolute, notTop⟩
  · constructor
    · exact List.isPrefixOf_iff_prefix.mpr
        ((List.isPrefixOf_iff_prefix.mp absolute).trans ((List.prefix_append _ _).trans below))
    · intro top
      have longer := text_length_lt below
      have atLeast := text_length_top absolute notTop
      rw [top] at longer
      omega

theorem narrow_list_some {Taken : Type} {kind : String} {turn : Json → Except String (Option Taken)} {wanted : Json}
    {narrowed : List Taken × List String} (done : narrowList js kind turn wanted = .ok narrowed) :
    ∃ items turns, wantedItems wanted = .ok items ∧ List.Forall₂ (fun item taken => turn item = .ok taken) items turns ∧
      narrowed.1 = turns.filterMap id := by
  unfold narrowList at done
  split at done
  · cases done
  · rename_i items isItems
    split at done
    · cases done
    · rename_i turns ran
      cases done
      exact ⟨items, turns, isItems, mapM_ok_iff.mp ran, rfl⟩

/-- The turns of a loop, when each takes what a function of its item says. -/
theorem turns_taken {Taken : Type} {turn : Json → Except String (Option Taken)} {takes : Json → Option Taken}
    (known : ∀ {item taken}, turn item = .ok taken → taken = takes item) {items : List Json} {turns : List (Option Taken)}
    (ran : List.Forall₂ (fun item taken => turn item = .ok taken) items turns) :
    turns.filterMap id = items.filterMap takes := by
  induction ran with
  | nil => rfl
  | cons done _ ih => rw [List.filterMap_cons, List.filterMap_cons, ih, ← known done, id]

/-- A host and port that a narrowed entry allows is allowed by the declared entry that it was checked against. -/
theorem taken_allowed {declared : List NetEntry} {item : Json} {w : NetEntry}
    (taken : narrowNetEntry js declared item = some w) {hostname : String} {port : Json}
    (allowed : (hostMatches w.host (js.toLowerCase hostname) && w.ports.all fun ports => includes ports port) = true) :
    hostAllowed js declared hostname port = true := by
  unfold narrowNetEntry at taken
  split at taken
  · rename_i text _
    split at taken
    · rename_i passes
      cases taken
      simp only [Bool.and_eq_true, Bool.not_eq_eq_eq_not, Bool.not_true] at passes allowed
      obtain ⟨plain, covered⟩ := passes
      obtain ⟨d, member, covering⟩ := List.any_eq_true.mp covered
      -- the host of a policy entry has no wildcard, so it is the host that is asked for
      have same : js.toLowerCase text = js.toLowerCase hostname := by simpa [hostMatches, plain] using allowed.1
      simp only [coversHost, Bool.and_eq_true, same] at covering
      refine List.any_eq_true.mpr ⟨d, member, Bool.and_eq_true_iff.mpr ⟨covering.1, ?_⟩⟩
      cases declaredPorts : d.ports with
      | none => rfl
      | some declared =>
          cases ofPolicy : portsOf item with
          | none => simp [declaredPorts, ofPolicy] at covering
          | some ports =>
              have each : ∀ p ∈ ports, includes declared p = true := by
                simpa [declaredPorts, ofPolicy] using covering.2
              have among : includes ports port = true := by simpa [ofPolicy] using allowed.2
              obtain ⟨p, inPolicy, isPort⟩ := List.any_eq_true.mp among
              obtain ⟨q, inDeclared, isSame⟩ := List.any_eq_true.mp (each p inPolicy)
              exact List.any_eq_true.mpr ⟨q, inDeclared, same_value_trans isSame isPort⟩
    · cases taken
  · cases taken

/-- The limits of one name: positive, and above nothing that was given for it. -/
def WithinLimits (requested : Table Nat) (ceilings entryLimits : Json) (limit : String × Nat) : Prop :=
  (∃ usual, (limit.1, usual) ∈ DEFAULT_LIMITS ∧
    limit.2 ≤ (positiveInteger (memberOrNull ceilings limit.1)).getD usual) ∧
      (∀ entryLimit, positiveInteger (memberOrNull entryLimits limit.1) = some entryLimit → limit.2 ≤ entryLimit) ∧
        (∀ request, requested.lookup limit.1 = some request → limit.2 ≤ request) ∧ 0 < limit.2

theorem narrow_limits_within {requested : Table Nat} (positive : ∀ limit ∈ requested, 0 < limit.2)
    (ceilings entryLimits : Json) :
    ∀ limit ∈ narrowLimits requested ceilings entryLimits, WithinLimits requested ceilings entryLimits limit := by
  intro limit member
  obtain ⟨⟨key, usual⟩, isDefault, rfl⟩ := List.mem_map.mp member
  have usualPositive : ∀ limit ∈ DEFAULT_LIMITS, 0 < limit.2 := by decide
  have capPositive : 0 < (positiveInteger (memberOrNull ceilings key)).getD usual := by
    cases given : positiveInteger (memberOrNull ceilings key) with
    | none => exact usualPositive _ isDefault
    | some ceiling => exact positive_integer_pos given
  suffices within : ∀ cap, 0 < cap → (positiveInteger (memberOrNull ceilings key)).getD usual = cap →
      WithinLimits requested ceilings entryLimits (narrowLimit requested ceilings entryLimits (key, usual)) from
    within _ capPositive rfl
  intro cap capPositive isCap
  unfold WithinLimits narrowLimit
  simp only [isCap]
  cases ofEntry : positiveInteger (memberOrNull entryLimits key) with
  | none =>
      cases asked : requested.lookup key with
      | none => exact ⟨⟨usual, isDefault, isCap.ge⟩, by simp, by simp, capPositive⟩
      | some request =>
          have requestPositive : 0 < request := positive _ (lookup_mem asked)
          refine ⟨⟨usual, isDefault, ?_⟩, by simp, ?_, ?_⟩
          · exact isCap ▸ Nat.min_le_right _ _
          · rintro _ ⟨⟩
            exact Nat.min_le_left _ _
          · exact Nat.lt_min.mpr ⟨requestPositive, capPositive⟩
  | some entryLimit =>
      have entryPositive : 0 < entryLimit := positive_integer_pos ofEntry
      cases asked : requested.lookup key with
      | none =>
          refine ⟨⟨usual, isDefault, ?_⟩, ?_, by simp, ?_⟩
          · exact isCap ▸ Nat.min_le_left _ _
          · rintro _ ⟨⟩
            exact Nat.min_le_right _ _
          · exact Nat.lt_min.mpr ⟨capPositive, entryPositive⟩
      | some request =>
          have requestPositive : 0 < request := positive _ (lookup_mem asked)
          refine ⟨⟨usual, isDefault, ?_⟩, ?_, ?_, ?_⟩
          · exact isCap ▸ (Nat.min_le_right _ _).trans (Nat.min_le_left _ _)
          · rintro _ ⟨⟩
            exact (Nat.min_le_right _ _).trans (Nat.min_le_right _ _)
          · rintro _ ⟨⟩
            exact Nat.min_le_left _ _
          · exact Nat.lt_min.mpr ⟨requestPositive, Nat.lt_min.mpr ⟨capPositive, entryPositive⟩⟩

theorem declared_limits_positive {pkg : Json} {declared : Declared} {problems : List String}
    (parsed : parseDeclaration js pkg = .ok (declared, problems)) : ∀ limit ∈ declared.limits, 0 < limit.2 := by
  intro limit member
  rcases (parse_declaration_some js parsed).2 with none | ⟨object, isLimits⟩
  · rw [none] at member
    cases member
  · rw [isLimits] at member
    unfold parseLimits at member
    split at member
    · cases member
    · obtain ⟨i, item, _, parsed⟩ := mem_sift member
      unfold parseLimit at parsed
      split at parsed
      · cases parsed
      · split at parsed
        · rename_i number is
          cases parsed
          exact positive_integer_pos is
        · cases parsed
    · cases member

end Turns

/-! Narrowing does not widen. -/
section Narrower

/-- What the policy asks for, entry by entry. -/
def asked (entry : Json) : List FsEntry :=
  match memberOrNull entry "fs" with
  | .array items => items.filterMap askedEntry
  | _ => []

/-- The policy asks for a writable root that a writable declared one is at or above, and another declared root is not
writable; one of the two is at or below the other, and at the lower one's path each is what its list goes by. -/
def Overlooks (asked declared : List FsEntry) : Prop :=
  ∃ w ∈ asked, ∃ d ∈ declared, writable w = true ∧ coveredBy declared w = true ∧ writable d = false ∧
    ((inside d.path w.path = true ∧ Governs asked d.path w ∧ Governs declared d.path d) ∨
      (inside w.path d.path = true ∧ Governs asked w.path w ∧ Governs declared w.path d))

/-- There is no entry, or it approves what is declared, or what it asks for overlooks nothing that is declared. -/
def Clear (declared : List FsEntry) (entry : Json) : Prop :=
  isNull entry = true ∨ sameValue (memberOrNull entry "approve") (.string "as-declared") = true ∨
    ¬ Overlooks (asked entry) declared

theorem narrow_fs_some (js : Builtins) {declared : List FsEntry} {entry : Json} {narrowed : List FsEntry × List String}
    (done : narrowFs js declared (memberOrNull entry "fs") = .ok narrowed) :
    narrowed.1 = (asked entry).filter (coveredBy declared) := by
  obtain ⟨items, turns, isItems, ran, isNarrowed⟩ := narrow_list_some js done
  rw [isNarrowed, turns_taken narrow_fs_entry_ok ran, asked]
  unfold wantedItems at isItems
  split at isItems
  · cases isItems
    rw [List.filter_filterMap]
  · split at isItems
    · cases isItems
    · cases isItems
      rfl

theorem asked_ranked {entry : Json} {e : FsEntry} (member : e ∈ asked entry) : (accessRank e.access).isSome = true := by
  unfold asked at member
  split at member
  · obtain ⟨item, _, is⟩ := List.mem_filterMap.mp member
    exact asked_entry_some is
  · cases member

theorem rank_le_two (access : Json) : ∀ rank, accessRank access = some rank → rank ≤ 2 := by
  induction access using json_induction with
  | string text =>
      intro rank is
      unfold accessRank at is
      split at is
      · cases is
        decide
      · split at is
        · cases is
          decide
        · cases is
  | array items ih =>
      intro rank is
      cases items with
      | nil => cases is
      | cons item rest =>
          cases rest with
          | nil => exact ih item List.mem_cons_self rank is
          | cons other rest => cases is
  | null => exact fun rank is => nomatch is
  | bool value => exact fun rank is => nomatch is
  | number value => exact fun rank is => nomatch is
  | object fields => exact fun rank is => nomatch is

theorem writable_rank {e : FsEntry} (is : writable e = true) : accessRank e.access = some 2 := by
  unfold writable at is
  cases given : e.access <;> simp_all [sameValue, accessRank]

/-- Below a writable root that is covered, all that is asked for is covered. -/
theorem covered_below {declared : List FsEntry} {w e : FsEntry}
    (proper : ∀ d ∈ declared, isAbsolute d.path = true ∧ d.path ≠ "/") (covered : coveredBy declared w = true)
    (isWritable : writable w = true) (ranked : (accessRank e.access).isSome = true)
    (below : inside e.path w.path = true) : coveredBy declared e = true := by
  obtain ⟨rank, isRank⟩ := Option.isSome_iff_exists.mp ranked
  obtain ⟨two, isTwo, d, member, within, above, isAbove, enough⟩ := (covered_iff proper w).mp covered
  rw [writable_rank isWritable, Option.some.injEq] at isTwo
  have notTop := (covered_inside proper covered).1.2
  exact (covered_iff proper e).mpr ⟨rank, isRank, d, member,
    inside_trans notTop (proper d member).2 below within, above, isAbove, (rank_le_two _ rank isRank).trans (isTwo ▸ enough)⟩

/-- A writable entry that is covered governs a path among all that is asked for, or among what of it is covered. -/
theorem governs_covered_iff {declared : List FsEntry} {entry : Json}
    (proper : ∀ d ∈ declared, isAbsolute d.path = true ∧ d.path ≠ "/") {path : String} {w : FsEntry}
    (isWritable : writable w = true) (covered : coveredBy declared w = true) :
    Governs ((asked entry).filter (coveredBy declared)) path w ↔ Governs (asked entry) path w := by
  constructor
  · intro governs
    have within := governs_inside governs
    have isAsked := List.mem_of_mem_filter (foremost_mem governs)
    obtain ⟨e, byAll⟩ := governs_exists isAsked within
    obtain ⟨absolute, notTop⟩ := (covered_inside proper covered).1
    -- the longest of all that is asked for lies below this one, so it is covered as well
    have longest : textLength w.path ≤ textLength e.path :=
      @foremost_max FsEntry (fun e => textLength e.path) _ _ _ _ byAll isAsked within
    have below : inside e.path w.path = true :=
      inside_of_longer absolute notTop within (governs_inside byAll) longest
    have alsoCovered := covered_below proper covered isWritable (asked_ranked (foremost_mem byAll)) below
    rwa [foremost_unique governs (foremost_filter byAll alsoCovered)]
  · exact fun governs => foremost_filter governs covered

theorem conflict_iff {declared : List FsEntry} (proper : ∀ d ∈ declared, isAbsolute d.path = true ∧ d.path ≠ "/")
    (entry : Json) :
    Conflict ((asked entry).filter (coveredBy declared)) declared ↔ Overlooks (asked entry) declared := by
  constructor
  · rintro ⟨w, member, d, isDeclared, isWritable, notWritable, nested⟩
    obtain ⟨isAsked, covered⟩ := List.mem_filter.mp member
    simp only [governs_covered_iff proper isWritable covered] at nested
    exact ⟨w, isAsked, d, isDeclared, isWritable, covered, notWritable, nested⟩
  · rintro ⟨w, isAsked, d, isDeclared, isWritable, covered, notWritable, nested⟩
    simp only [← governs_covered_iff proper isWritable covered] at nested
    exact ⟨w, List.mem_filter.mpr ⟨isAsked, covered⟩, d, isDeclared, isWritable, notWritable, nested⟩

theorem granted_le_iff {declared : List FsEntry} (proper : ∀ d ∈ declared, isAbsolute d.path = true ∧ d.path ≠ "/")
    (entry : Json) :
    (∀ path, effective ((asked entry).filter (coveredBy declared)) path ≤ effective declared path) ↔
      ¬ Overlooks (asked entry) declared := by
  have inside : ∀ w ∈ (asked entry).filter (coveredBy declared),
      (isAbsolute w.path = true ∧ w.path ≠ "/") ∧ ∃ d ∈ declared, inside w.path d.path = true :=
    fun w member => covered_inside proper (List.mem_filter.mp member).2
  rw [effective_le_iff (fun w member => (inside w member).1.2) (fun d member => (proper d member).2)
    (fun w member => (inside w member).2), conflict_iff proper entry]

/-- The files are never opened further than declared exactly when the policy overlooks nothing that is declared; hosts,
environment and limits never are. -/
theorem narrow_never_widens (js : Builtins) (pkg entry ceilings : Json) (mode : String) (declared : Declared)
    (problems : List String) (result : Narrowed) (parsed : parseDeclaration js pkg = .ok (declared, problems))
    (narrowed : narrow js declared entry ceilings mode = .ok result) :
    ((∀ path, effective result.fs path ≤ effective declared.fs path) ↔ Clear declared.fs entry) ∧
      (∀ hostname port, hostAllowed js result.net hostname port = true →
        hostAllowed js declared.net hostname port = true) ∧
      (∀ name ∈ result.envNames, name ∈ declared.env) ∧
      (∀ entry ∈ result.envOverrides, entry.1 ∈ declared.env) ∧
      result.limits.map Prod.fst = LIMIT_KEYS ∧
      ∀ limit ∈ result.limits, WithinLimits declared.limits ceilings (memberOrNull entry "limits") limit := by
  have proper := declared_proper js parsed
  have limits := narrow_limits_within (declared_limits_positive js parsed) ceilings (memberOrNull entry "limits")
  have keys : (narrowLimits declared.limits ceilings (memberOrNull entry "limits")).map Prod.fst = LIMIT_KEYS := by
    simp [narrowLimits, narrowLimit, LIMIT_KEYS, Function.comp_def]
  unfold narrow at narrowed
  dsimp only at narrowed
  have overrides : ∀ property ∈ ((properties (memberOrNull entry "env")).filter fun property =>
      declared.env.contains property.1).filterMap asText, property.1 ∈ declared.env := by
    intro property member
    obtain ⟨named, isNamed, isText⟩ := List.mem_filterMap.mp member
    have same : named.1 = property.1 := by
      unfold asText at isText
      split at isText
      · cases isText
        rfl
      · cases isText
    simpa [same] using (List.mem_filter.mp isNamed).2
  split at narrowed
  · rename_i none
    split at narrowed
    · cases narrowed
      exact ⟨iff_of_true (fun path => Nat.le_refl _) (Or.inl none), fun _ _ allowed => allowed, fun _ member => member,
        by simp, keys, limits⟩
    · cases narrowed
      exact ⟨iff_of_true (fun path => Nat.zero_le _) (Or.inl none), by simp [hostAllowed], by simp, by simp, keys, limits⟩
  · rename_i entered
    split at narrowed
    · rename_i approved
      cases narrowed
      exact ⟨iff_of_true (fun path => Nat.le_refl _) (Or.inr (Or.inl approved)), fun _ _ allowed => allowed,
        fun _ member => member, overrides, keys, limits⟩
    · rename_i notApproved
      split at narrowed
      · cases narrowed
      · rename_i fs isFs
        split at narrowed
        · cases narrowed
        · rename_i net isNet
          cases narrowed
          have isGranted := narrow_fs_some js isFs
          obtain ⟨items, turns, _, ran, isNet⟩ := narrow_list_some js isNet
          have taken : turns.filterMap id = items.filterMap (narrowNetEntry js declared.net) :=
            turns_taken (fun done => (Except.ok.inj done).symm) ran
          rw [taken] at isNet
          refine ⟨?_, ?_, ?_, overrides, keys, limits⟩
          · simp only [isGranted, granted_le_iff proper entry]
            constructor
            · exact fun clear => Or.inr (Or.inr clear)
            · rintro (none | approved | clear)
              · exact absurd none entered
              · exact absurd approved notApproved
              · exact clear
          · intro hostname port allowed
            simp only [isNet] at allowed
            obtain ⟨w, member, matching⟩ := List.any_eq_true.mp allowed
            obtain ⟨item, _, taken⟩ := List.mem_filterMap.mp member
            exact taken_allowed js taken matching
          · intro name member
            obtain ⟨property, isProperty, rfl⟩ := List.mem_map.mp member
            simpa using (List.mem_filter.mp isProperty).2

/-- Enough of JavaScript for texts in ASCII. -/
def ascii : Builtins where
  toLowerCase text := text.map Char.toLower
  text := fun
    | .string text => text
    | _ => ""
  stringify _ := ""

def fsItem (path access : String) : Json := .object [("path", .string path), ("access", .string access)]

def withPermissions (fs : List Json) : Json :=
  .object [("countinghouse", .object [("permissions", .object [("fs", .array fs)])])]

def wantsFs (fs : List Json) : Json := .object [("fs", .array fs)]

/-- A tree to write to, with a directory in it that is only read. -/
def nested : Json := withPermissions [fsItem "/srv" "rw", fsItem "/srv/conf" "r"]

/-- The policy asks for the tree alone, and the directory can be written to. -/
theorem nested_widened : ∃ declared,
    parseDeclaration ascii nested = .ok (declared, []) ∧
      ∃ result, narrow ascii declared (wantsFs [fsItem "/srv" "rw"]) .null "enforce" = .ok result ∧
        effective declared.fs "/srv/conf" < effective result.fs "/srv/conf" := by
  refine ⟨⟨[⟨"/srv", .string "rw"⟩, ⟨"/srv/conf", .string "r"⟩], [], [], []⟩, by rfl, _, rfl, by decide +kernel⟩

/-- A policy that asks to read only overlooks nothing. -/
theorem nested_read : ∃ declared result, parseDeclaration ascii nested = .ok (declared, []) ∧
    narrow ascii declared (wantsFs [fsItem "/srv" "r"]) .null "enforce" = .ok result ∧
      ∀ path, effective result.fs path ≤ effective declared.fs path := by
  have reads : ∀ w ∈ asked (wantsFs [fsItem "/srv" "r"]), writable w = false := by decide +kernel
  have clear : ∀ declared, ¬ Overlooks (asked (wantsFs [fsItem "/srv" "r"])) declared := by
    rintro declared ⟨w, member, _, _, isWritable, -⟩
    rw [reads w member] at isWritable
    cases isWritable
  exact ⟨⟨[⟨"/srv", .string "rw"⟩, ⟨"/srv/conf", .string "r"⟩], [], [], []⟩, _, rfl, rfl,
    (narrow_never_widens ascii nested (wantsFs [fsItem "/srv" "r"]) .null "enforce" _ _ _ rfl rfl).1.mpr
      (Or.inr (Or.inr (clear _)))⟩

end Narrower

end Countinghouse.ModulePermissions
