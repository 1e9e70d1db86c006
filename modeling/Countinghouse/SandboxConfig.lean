import Mathlib
import Countinghouse.ModulePermissions
import Countinghouse.ModuleTree

/-!
What is decided before a module's worker starts: the policy file of lib/module-policy.js and the
worker's configuration of lib/module-sandbox-config.js. The package.json and the policy are parsed
JSON, and what checkTree reports is an argument.
-/

namespace Countinghouse.SandboxConfig

open JsonValues ModulePermissions PlainObject
open RedisMetering (Json)

/-! The policy file. -/
section Load

structure Policy where
  limits : Json
  modules : Table Json

def EMPTY : Policy := ⟨.object [], []⟩

/-- What reading and parsing the file gives. -/
inductive PolicyFile where
  | unreadable (message : String)
  | invalid (message : String)
  | parsed (raw : Json)

def fail {α : Type} (place message : String) : Except String α := .error ("--modulePolicy: " ++ place ++ " " ++ message)

def checkArray (v : Json) (place : String) : Except String Unit :=
  match v with
  | .null => .ok ()
  | .array _ => .ok ()
  | _ => fail place "must be an array"

def checkObject (v : Json) (place : String) (isRequired : Bool) : Except String Unit :=
  match v with
  | .null => if isRequired then fail place "must be an object" else .ok ()
  | .object _ => .ok ()
  | _ => fail place "must be an object"

def checkLimit (place : String) (limit : String × Json) : Except String Unit :=
  if limit.1 ∉ LIMIT_KEYS then
    fail (place ++ "." ++ limit.1) ("is not a known limit (" ++ ", ".intercalate LIMIT_KEYS ++ ")")
  else if (positiveInteger limit.2).isNone then fail (place ++ "." ++ limit.1) "must be a positive integer"
  else .ok ()

/-- `forEach`, up to the first failure. -/
def forEach {α : Type} (act : α → Except String Unit) : List α → Except String Unit
  | [] => .ok ()
  | a :: rest =>
      match act a with
      | .error message => .error message
      | .ok () => forEach act rest

def validateLimits (limits : Json) (place : String) : Except String Unit :=
  match limits with
  | .null => .ok ()
  | .object fields => forEach (checkLimit place) fields
  | _ => fail place "must be an object"

def checkApprove (approve : Json) (place : String) : Except String Unit :=
  if isNull approve || sameValue approve (.string "as-declared") then .ok () else fail place "must be \"as-declared\""

/-- One turn of the loop over the modules. -/
def checkModule (entry : String × Json) : Except String Unit := do
  let place := "modules." ++ entry.1
  let e := entry.2
  checkObject e place true
  checkApprove (memberOrNull e "approve") (place ++ ".approve")
  checkArray (memberOrNull e "fs") (place ++ ".fs")
  checkArray (memberOrNull e "net") (place ++ ".net")
  checkObject (memberOrNull e "env") (place ++ ".env") false
  validateLimits (memberOrNull e "limits") (place ++ ".limits")

/-- `value || {}`, for a value that is an object or null. -/
def orEmpty (value : Json) : Json := if truthy value then value else .object []

def atText : List Char := ['a', 't', ' ', 'p', 'o', 's', 'i', 't', 'i', 'o', 'n', ' ']
def lineText : List Char := [' ', '(', 'l', 'i', 'n', 'e', ' ']
def columnText : List Char := [' ', 'c', 'o', 'l', 'u', 'm', 'n', ' ']

/-- A fixed text and a number behind it, and the rest. -/
def numbered (front s : List Char) : Option (List Char × List Char) :=
  let number := (s.drop front.length).takeWhile Char.isDigit
  if front.isPrefixOf s && !number.isEmpty then some (front ++ number, s.drop (front.length + number.length)) else none

/-- The part in brackets that may follow. -/
def lineColumn (s : List Char) : List Char :=
  match numbered lineText s with
  | none => []
  | some (line, s) =>
      match numbered columnText s with
      | none => []
      | some (column, s) => if s.head? = some ')' then line ++ column ++ [')'] else []

/-- The first match of `at position \d+( \(line \d+ column \d+\))?`. -/
def findPosition : List Char → Option (List Char)
  | [] => none
  | c :: s =>
      match numbered atText (c :: s) with
      | some (position, rest) => some (position ++ lineColumn rest)
      | none => findPosition s

def jsonErrorWithoutInput (message : String) : String :=
  match findPosition message.toList with
  | some found => "invalid JSON" ++ " " ++ String.ofList found
  | none => "invalid JSON"

def load (file : String) (content : PolicyFile) : Except String Policy :=
  match content with
  | .unreadable message => .error ("--modulePolicy: cannot read " ++ file ++ ": " ++ message)
  | .invalid message => .error ("--modulePolicy: cannot read " ++ file ++ ": " ++ jsonErrorWithoutInput message)
  | .parsed raw => do
      checkObject raw "the file" true
      validateLimits (memberOrNull raw "limits") "limits"
      checkObject (memberOrNull raw "modules") "modules" false
      forEach checkModule (properties (orEmpty (memberOrNull raw "modules")))
      .ok ⟨orEmpty (memberOrNull raw "limits"), properties (orEmpty (memberOrNull raw "modules"))⟩

end Load

/-! The configuration. -/
section Build

variable (js : Builtins)

/-- One turn of `resolveEnv`. -/
def setEnv (envOverrides serverEnv out : Table String) (name : String) : Table String :=
  match envOverrides.lookup name with
  | some value => setKey out name value
  | none =>
      match serverEnv.lookup name with
      | some value => setKey out name value
      | none => out

def resolveEnv (envNames : List String) (envOverrides serverEnv : Table String) : Table String :=
  envNames.foldl (setEnv envOverrides serverEnv) []

structure Options where
  mode : String
  modulePolicy : Option (String × PolicyFile)
  serverEnv : Table String

/-- What the host shows of a module. -/
structure Host where
  /-- `fs.realpathSync` of its directory. -/
  moduleRoot : Except String String
  /-- The package.json, or the message of the error. -/
  package : Except String Json
  tree : Except String ModuleTree.Report

structure Lockdown where
  mode : String
  moduleName : String
  moduleRoot : String
  net : List NetEntry

structure Config where
  refusal : Option String
  notes : List String
  env : Table String
  maxOldGenerationSizeMb : Option Nat
  fs : List FsEntry
  lockdown : Lockdown
  limits : Table Nat

/-- The policy of this spawn, and the note when the file is no use. -/
def policyOf (options : Options) : Policy × List String :=
  match options.modulePolicy with
  | none => (EMPTY, [])
  | some (file, content) =>
      match load file content with
      | .ok policy => (policy, [])
      | .error message => (EMPTY, [message ++ " -- using an empty policy for this spawn"])

/-- The module's key in the policy. -/
def keyOf (pkg : Json) (name : String) : String :=
  match memberOrNull pkg "name" with
  | .string own => own
  | _ => name

def entryOf (policy : Policy) (key : String) : Json := (policy.modules.lookup key).getD .null

def packageOf (host : Host) : Json := host.package.toOption.getD .null

def readProblem (host : Host) : List String :=
  match host.package with
  | .ok _ => []
  | .error message => ["package.json could not be read: " ++ message]

/-- None under `--moduleSandbox off`. -/
def build (host : Host) (name : String) (options : Options) : Except String (Option Config) :=
  if options.mode = "off" then .ok none
  else do
    let moduleRoot ← host.moduleRoot
    let parsed ← parseDeclaration js (packageOf host)
    let tree ← host.tree
    let problems := readProblem host ++ parsed.2 ++ tree.problems
    let policy := policyOf options
    let entry := entryOf policy.1 (keyOf (packageOf host) name)
    let eff ← narrow js parsed.1 entry policy.1.limits options.mode
    .ok (some
      { refusal := if problems.isEmpty then none else some ("; ".intercalate problems)
        notes := policy.2 ++ eff.ignored ++ tree.warnings.map ("warning: " ++ ·)
        env := resolveEnv eff.envNames eff.envOverrides options.serverEnv
        maxOldGenerationSizeMb := eff.limits.lookup "heapMb"
        fs := eff.fs
        lockdown := ⟨options.mode, name, moduleRoot, eff.net⟩
        limits := eff.limits })

end Build

/-! What a policy file that is accepted looks like. -/
section Accepted

theorem for_each_ok {α : Type} {act : α → Except String Unit} {items : List α} :
    forEach act items = .ok () ↔ ∀ item ∈ items, act item = .ok () := by
  induction items with
  | nil => simp [forEach]
  | cons item rest ih =>
      cases acted : act item with
      | error message => simp [forEach, acted]
      | ok done => simp [forEach, acted, ih]

theorem check_array_ok {v : Json} {place : String} (ok : checkArray v place = .ok ()) :
    v = .null ∨ ∃ items, v = .array items := by
  cases v with
  | null => exact .inl rfl
  | array items => exact .inr ⟨items, rfl⟩
  | bool value => cases ok
  | number value => cases ok
  | string text => cases ok
  | object fields => cases ok

/-- Lists that `narrow` can go through. -/
def Listed (v : Json) : Prop := v = .null ∨ ∃ items, v = .array items

theorem wanted_listed {v : Json} (listed : Listed v) : ∃ items, wantedItems v = .ok items := by
  rcases listed with rfl | ⟨items, rfl⟩
  · exact ⟨[], rfl⟩
  · exact ⟨items, rfl⟩

theorem check_module_listed {entry : String × Json} (ok : checkModule entry = .ok ()) :
    Listed (memberOrNull entry.2 "fs") ∧ Listed (memberOrNull entry.2 "net") := by
  simp only [checkModule, bind, Except.bind] at ok
  split at ok
  · cases ok
  split at ok
  · cases ok
  split at ok
  · cases ok
  next fsOk =>
  split at ok
  · cases ok
  next netOk => exact ⟨check_array_ok fsOk, check_array_ok netOk⟩

theorem load_modules {file : String} {content : PolicyFile} {policy : Policy} (ok : load file content = .ok policy) :
    ∀ entry ∈ policy.modules, checkModule entry = .ok () := by
  cases content with
  | unreadable message => cases ok
  | invalid message => cases ok
  | parsed raw =>
      simp only [load, bind, Except.bind] at ok
      split at ok
      · cases ok
      split at ok
      · cases ok
      split at ok
      · cases ok
      split at ok
      · cases ok
      next checked =>
      cases ok
      exact for_each_ok.1 checked

/-- The entry of a module, in the policy of a spawn. -/
theorem entry_listed (options : Options) (key : String) :
    Listed (memberOrNull (entryOf (policyOf options).1 key) "fs") ∧
      Listed (memberOrNull (entryOf (policyOf options).1 key) "net") := by
  have absent : Listed (memberOrNull .null "fs") ∧ Listed (memberOrNull .null "net") := ⟨.inl rfl, .inl rfl⟩
  have ofEmpty : entryOf EMPTY key = .null := rfl
  unfold policyOf
  cases options.modulePolicy with
  | none => exact absent
  | some given =>
      obtain ⟨file, content⟩ := given
      cases loaded : load file content with
      | error message => simpa [loaded, ofEmpty] using absent
      | ok policy =>
          simp only [loaded, entryOf]
          cases found : policy.modules.lookup key with
          | none => exact absent
          | some e =>
              have member : (key, e) ∈ policy.modules := by
                obtain ⟨front, back, whole, _⟩ := List.lookup_eq_some_iff.1 found
                simp [whole]
              exact check_module_listed (load_modules loaded _ member)

/-- A turn of a loop throws only where a value has no text. -/
theorem rank_of_error {access : Json} {message : String} (error : rankOf access = .error message) :
    textless access = true ∧ message = NO_TEXT := by
  unfold rankOf at error
  split at error
  · cases error
    exact ⟨‹_›, rfl⟩
  · cases error

theorem narrow_fs_entry_error {declared : List FsEntry} {w : Json} {message : String}
    (error : narrowFsEntry declared w = .error message) :
    textless (memberOrNull w "access") = true ∧ message = NO_TEXT := by
  unfold narrowFsEntry at error
  split at error
  · split at error
    · split at error
      · rename_i isError
        cases error
        exact rank_of_error isError
      · cases error
      · cases error
    · cases error
  · cases error

theorem parse_fs_entry_error {i : Nat} {e : Json} {message : String} (error : parseFsEntry i e = .error message) :
    textless (memberOrNull e "access") = true ∧ message = NO_TEXT := by
  unfold parseFsEntry at error
  dsimp only at error
  split at error
  · split at error
    · cases error
    · split at error
      · cases error
      · split at error
        · cases error
        · split at error
          · rename_i isError
            cases error
            exact rank_of_error isError
          · cases error
          · cases error
  · cases error

theorem parse_env_name_error {js : Builtins} {i : Nat} {name : Json} {message : String}
    (error : parseEnvName js i name = .error message) : textless name = true ∧ message = NO_TEXT := by
  unfold parseEnvName at error
  dsimp only at error
  split at error
  · cases error
  · split at error
    · cases error
      exact ⟨‹_›, rfl⟩
    · cases error

theorem sift_error {Item Taken : Type} {parse : Nat → Item → Except String (Except String Taken)} {items : List Item}
    {message : String} (error : siftOrThrow parse items = .error message) :
    ∃ i, ∃ item ∈ items, parse i item = .error message := by
  unfold siftOrThrow at error
  split at error
  · rename_i isError
    cases error
    obtain ⟨⟨item, i⟩, member, isError⟩ := mapM_error isError
    exact ⟨i, item, List.fst_mem_of_mem_zipIdx member, isError⟩
  · cases error

/-- An access that is declared, or a name of a variable, has no text. -/
def TextlessDeclaration (pkg : Json) : Prop :=
  (∃ items, memberOrNull (permissionsOf pkg) "fs" = .array items ∧
      ∃ e ∈ items, textless (memberOrNull e "access") = true) ∨
    ∃ names, memberOrNull (permissionsOf pkg) "env" = .array names ∧ ∃ name ∈ names, textless name = true

/-- An access in the policy's entry has none. -/
def TextlessEntry (entry : Json) : Prop :=
  ∃ items, memberOrNull entry "fs" = .array items ∧ ∃ w ∈ items, textless (memberOrNull w "access") = true

theorem parse_fs_error {list : Json} {message : String} (error : parseFs list = .error message) :
    (∃ items, list = .array items ∧ ∃ e ∈ items, textless (memberOrNull e "access") = true) ∧ message = NO_TEXT := by
  unfold parseFs at error
  split at error
  · cases error
  · rename_i items
    obtain ⟨_, e, member, isError⟩ := sift_error error
    obtain ⟨noText, isMessage⟩ := parse_fs_entry_error isError
    exact ⟨⟨items, rfl, e, member, noText⟩, isMessage⟩
  · cases error

theorem parse_env_error {js : Builtins} {list : Json} {message : String} (error : parseEnv js list = .error message) :
    (∃ names, list = .array names ∧ ∃ name ∈ names, textless name = true) ∧ message = NO_TEXT := by
  unfold parseEnv at error
  split at error
  · cases error
  · rename_i names
    obtain ⟨_, name, member, isError⟩ := sift_error error
    obtain ⟨noText, isMessage⟩ := parse_env_name_error isError
    exact ⟨⟨names, rfl, name, member, noText⟩, isMessage⟩
  · cases error

theorem parse_declaration_error {js : Builtins} {pkg : Json} {message : String}
    (error : parseDeclaration js pkg = .error message) : TextlessDeclaration pkg ∧ message = NO_TEXT := by
  unfold parseDeclaration at error
  unfold TextlessDeclaration
  split at error
  · cases error
  · rename_i fields isObject
    rw [isObject]
    cases ofFs : parseFs (memberOrNull (.object fields) "fs") with
    | error thrown =>
        simp only [ofFs, bind, Except.bind, Except.error.injEq] at error
        obtain ⟨noText, isMessage⟩ := parse_fs_error ofFs
        exact ⟨Or.inl noText, error ▸ isMessage⟩
    | ok fs =>
        cases ofEnv : parseEnv js (memberOrNull (.object fields) "env") with
        | error thrown =>
            simp only [ofFs, ofEnv, bind, Except.bind, Except.error.injEq] at error
            obtain ⟨noText, isMessage⟩ := parse_env_error ofEnv
            exact ⟨Or.inr noText, error ▸ isMessage⟩
        | ok env => simp [ofFs, ofEnv, bind, Except.bind] at error
  · cases error

theorem narrow_fs_error {js : Builtins} {declared : List FsEntry} {entry : Json} {message : String}
    (listed : Listed (memberOrNull entry "fs")) (error : narrowFs js declared (memberOrNull entry "fs") = .error message) :
    TextlessEntry entry ∧ message = NO_TEXT := by
  unfold narrowFs narrowList at error
  rcases listed with none | ⟨items, isItems⟩
  · rw [none] at error
    cases error
  · simp only [isItems, wantedItems] at error
    split at error
    · rename_i isError
      cases error
      obtain ⟨w, member, isError⟩ := mapM_error isError
      obtain ⟨noText, isMessage⟩ := narrow_fs_entry_error isError
      exact ⟨⟨items, isItems, w, member, noText⟩, isMessage⟩
    · cases error

theorem narrow_net_ok (js : Builtins) (declared : List NetEntry) {wanted : Json} (listed : Listed wanted) :
    ∃ narrowed, narrowNet js declared wanted = .ok narrowed := by
  obtain ⟨items, isItems⟩ := wanted_listed listed
  cases ran : items.mapM fun w => (.ok (narrowNetEntry js declared w) : Except String (Option NetEntry)) with
  | error message =>
      obtain ⟨_, _, isError⟩ := mapM_error ran
      cases isError
  | ok turns =>
      simp only [narrowNet, narrowList, isItems, ran]
      exact ⟨_, rfl⟩

/-- Of a policy that is accepted, it is an access without a text that narrowing fails by. -/
theorem narrow_error {js : Builtins} {declared : Declared} {entry ceilings : Json} {mode message : String}
    (listed : Listed (memberOrNull entry "fs") ∧ Listed (memberOrNull entry "net"))
    (error : narrow js declared entry ceilings mode = .error message) : TextlessEntry entry ∧ message = NO_TEXT := by
  unfold narrow at error
  dsimp only at error
  split at error
  · split at error <;> cases error
  · split at error
    · cases error
    · split at error
      · rename_i isError
        cases error
        exact narrow_fs_error listed.1 isError
      · split at error
        · rename_i isError
          obtain ⟨narrowed, isNarrowed⟩ := narrow_net_ok js declared.net listed.2
          rw [isNarrowed] at isError
          cases isError
        · cases error

end Accepted

/-! What a worker is given. -/
section Given

variable (js : Builtins)

/-- Where a variable of the worker comes from. -/
def Sourced (envNames : List String) (envOverrides serverEnv : Table String) (entry : String × String) : Prop :=
  entry.1 ∈ envNames ∧
    (envOverrides.lookup entry.1 = some entry.2 ∨
      (envOverrides.lookup entry.1 = none ∧ serverEnv.lookup entry.1 = some entry.2))

theorem set_env_sourced {envNames : List String} {envOverrides serverEnv out : Table String} {name : String}
    (named : name ∈ envNames) (sourced : ∀ entry ∈ out, Sourced envNames envOverrides serverEnv entry) :
    ∀ entry ∈ setEnv envOverrides serverEnv out name, Sourced envNames envOverrides serverEnv entry := by
  intro entry member
  unfold setEnv at member
  split at member
  · next value given =>
    rcases setKey_mem member with old | rfl
    · exact sourced entry old
    · exact ⟨named, .inl given⟩
  · next missing =>
    split at member
    · next value served =>
      rcases setKey_mem member with old | rfl
      · exact sourced entry old
      · exact ⟨named, .inr ⟨missing, served⟩⟩
    · exact sourced entry member

theorem resolve_env_sourced (envNames : List String) (envOverrides serverEnv : Table String) :
    ∀ entry ∈ resolveEnv envNames envOverrides serverEnv, Sourced envNames envOverrides serverEnv entry := by
  have turns : ∀ (names : List String) (out : Table String), (∀ name ∈ names, name ∈ envNames) →
      (∀ entry ∈ out, Sourced envNames envOverrides serverEnv entry) →
      ∀ entry ∈ names.foldl (setEnv envOverrides serverEnv) out, Sourced envNames envOverrides serverEnv entry := by
    intro names
    induction names with
    | nil => exact fun out _ sourced => sourced
    | cons name rest ih =>
        intro out named sourced
        exact ih _ (fun other mem => named other (List.mem_cons_of_mem name mem))
          (set_env_sourced (named name (by simp)) sourced)
  exact turns envNames [] (fun _ mem => mem) (by simp)

/-- A value that the policy's entry gives a variable. -/
def PolicyValue (entry : Json) (given : String × String) : Prop :=
  (given.1, Json.string given.2) ∈ properties (memberOrNull entry "env")

theorem narrow_overrides {declared : Declared} {entry ceilings : Json} {mode : String} {eff : Narrowed}
    (narrowed : narrow js declared entry ceilings mode = .ok eff) : ∀ given ∈ eff.envOverrides, PolicyValue entry given := by
  have texts : ∀ given ∈ ((properties (memberOrNull entry "env")).filter fun property =>
      declared.env.contains property.1).filterMap asText, PolicyValue entry given := by
    intro given member
    obtain ⟨property, isProperty, isText⟩ := List.mem_filterMap.1 member
    obtain ⟨key, value⟩ := property
    unfold asText at isText
    split at isText
    · next text same =>
      cases isText
      have mem := List.mem_of_mem_filter isProperty
      rwa [show value = Json.string text from same] at mem
    · cases isText
  unfold narrow at narrowed
  simp only at narrowed
  split at narrowed
  · split at narrowed
    · cases narrowed
      simp
    · cases narrowed
      simp
  · split at narrowed
    · cases narrowed
      exact texts
    · split at narrowed
      · cases narrowed
      · split at narrowed
        · cases narrowed
        · cases narrowed
          exact texts

theorem narrow_unlisted {declared : Declared} {ceilings : Json} {eff : Narrowed}
    (narrowed : narrow js declared .null ceilings "enforce" = .ok eff) : eff.fs = [] ∧ eff.net = [] ∧ eff.envNames = [] := by
  simp only [narrow, isNull, ne_eq, not_true_eq_false, if_true, if_false] at narrowed
  cases narrowed
  exact ⟨rfl, rfl, rfl⟩

/-- What a worker is given, for a module that declares so much and a policy that has such an entry for it. -/
structure Within (declared : Declared) (policy : Policy) (entry : Json) (options : Options) (config : Config) : Prop where
  hosts : ∀ hostname port, hostAllowed js config.lockdown.net hostname port = true →
    hostAllowed js declared.net hostname port = true
  env : ∀ given ∈ config.env, given.1 ∈ declared.env ∧
    (PolicyValue entry given ∨ options.serverEnv.lookup given.1 = some given.2)
  limits : config.limits.map Prod.fst = LIMIT_KEYS ∧
    ∀ limit ∈ config.limits, WithinLimits declared.limits policy.limits (memberOrNull entry "limits") limit
  approval : options.mode = "enforce" → entry = .null → config.fs = [] ∧ config.lockdown.net = [] ∧ config.env = []

theorem within_of_narrow {pkg : Json} {declared : Declared} {problems : List String} {policy : Policy} {entry : Json}
    {options : Options} {eff : Narrowed} {config : Config} (parsed : parseDeclaration js pkg = .ok (declared, problems))
    (narrowed : narrow js declared entry policy.limits options.mode = .ok eff) (isFs : config.fs = eff.fs)
    (isNet : config.lockdown.net = eff.net)
    (isEnv : config.env = resolveEnv eff.envNames eff.envOverrides options.serverEnv) (isLimits : config.limits = eff.limits) :
    Within js declared policy entry options config := by
  obtain ⟨_, net, envNames, envOverrides, keys, limits⟩ :=
    narrow_never_widens js pkg _ _ _ declared problems eff parsed narrowed
  refine ⟨by rwa [isNet], ?_, by rw [isLimits]; exact ⟨keys, limits⟩, ?_⟩
  · intro given member
    rw [isEnv] at member
    obtain ⟨named, value⟩ := resolve_env_sourced _ _ _ given member
    refine ⟨envNames _ named, ?_⟩
    rcases value with fromPolicy | ⟨_, fromServer⟩
    · obtain ⟨front, back, whole, _⟩ := List.lookup_eq_some_iff.1 fromPolicy
      exact .inl (narrow_overrides js narrowed given (by simp [whole]))
    · exact .inr fromServer
  · intro strict unlisted
    rw [unlisted, strict] at narrowed
    obtain ⟨fs, noNet, noNames⟩ := narrow_unlisted js narrowed
    exact ⟨isFs.trans fs, isNet.trans noNet, by simp [isEnv, resolveEnv, noNames]⟩

/-- What a policy file holds stops no spawn, but for an access that has no text; and a worker is given no more than its
module declares and the policy lets it have, which under enforce is nothing without an entry of its own. -/
theorem build_within (host : Host) (name : String) (options : Options) :
    (∀ message, build js host name options = .error message →
      host.moduleRoot = .error message ∨ host.tree = .error message ∨
        message = NO_TEXT ∧ (TextlessDeclaration (packageOf host) ∨
          TextlessEntry (entryOf (policyOf options).1 (keyOf (packageOf host) name)))) ∧
    ∀ config, build js host name options = .ok (some config) →
      ∃ declared problems, parseDeclaration js (packageOf host) = .ok (declared, problems) ∧
        Within js declared (policyOf options).1 (entryOf (policyOf options).1 (keyOf (packageOf host) name)) options
          config := by
  unfold build
  by_cases off : options.mode = "off"
  · simp [off]
  rw [if_neg off]
  cases root : host.moduleRoot with
  | error message => simp [bind, Except.bind]
  | ok moduleRoot =>
      cases parsed : parseDeclaration js (packageOf host) with
      | error thrown =>
          obtain ⟨noText, rfl⟩ := parse_declaration_error parsed
          simp only [bind, Except.bind]
          exact ⟨fun message isMessage => Or.inr (Or.inr ⟨(Except.error.inj isMessage).symm, Or.inl noText⟩),
            fun config isConfig => nomatch isConfig⟩
      | ok found =>
          obtain ⟨declared, problems⟩ := found
          cases checked : host.tree with
          | error message => simp [bind, Except.bind]
          | ok tree =>
              cases narrowed : narrow js declared (entryOf (policyOf options).1 (keyOf (packageOf host) name))
                  (policyOf options).1.limits options.mode with
              | error thrown =>
                  obtain ⟨noText, rfl⟩ := narrow_error (entry_listed options (keyOf (packageOf host) name)) narrowed
                  simp only [bind, Except.bind, narrowed]
                  exact ⟨fun message isMessage => Or.inr (Or.inr ⟨(Except.error.inj isMessage).symm, Or.inr noText⟩),
                    fun config isConfig => nomatch isConfig⟩
              | ok eff =>
                  simp only [bind, Except.bind, narrowed]
                  refine ⟨by simp, ?_⟩
                  intro config isConfig
                  simp only [Except.ok.injEq, Option.some.injEq] at isConfig
                  refine ⟨declared, problems, rfl, ?_⟩
                  rw [← isConfig]
                  exact within_of_narrow js parsed narrowed rfl rfl rfl rfl

-- An access that is an object with its own `toString`, in a policy file that is accepted, does stop one.
example : build ascii ⟨.ok "/m", .ok (withPermissions []), .ok ⟨[], []⟩⟩ "m"
    ⟨"enforce", some ("policy.json", .parsed (.object [("modules", .object [("m", wantsFs [.object [("path", .string "/x"),
      ("access", .object [("toString", .number 0)])]])])])), []⟩ = .error NO_TEXT := by
  rfl

end Given

end Countinghouse.SandboxConfig
