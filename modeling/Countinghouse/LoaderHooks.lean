import Mathlib
import Countinghouse.AuditedRuns
import Countinghouse.JsonValues
import Countinghouse.NamespacePaths
import Countinghouse.SplitText
import Countinghouse.ThreadFacade

/-!
The two loader hooks of a module worker, the identity hook of lib/fs-broker/identity.js in front of
the boundary of lib/module-lockdown.js, as lib/sandbox.js installs them. Node's own resolver is a
parameter, as it answers in the mode at hand: under enforce the identity hook also replaces what
`Module` looks files up with. A URL of a file is given with the path that `fileURLToPath` makes of it.
`typeCache`, `lasting` and `seen` are left out, so a call notes again what an earlier one has noted.
-/

namespace Countinghouse.LoaderHooks

open AuditedRuns AuditedRuns.Run TextRoots
open JsonValues (memberOrNull sameValue)
open NamespacePaths (joined)
open PathTexts (Plain normalizeString_plain split_absoluteText absolute_absoluteText resolve_absoluteText)
open RedisMetering (Json)
open SplitText (sliceUnits)
open ThreadFacade (Text insideRoot isAbsolute)

inductive Mode where
  | off
  | audit
  | enforce
  deriving DecidableEq

inductive Format where
  | commonjs
  | module
  | json
  | other (name : Text)
  deriving DecidableEq

inductive Url where
  | file (path : Text)
  | other (text : Text)
  deriving DecidableEq

/-- What is asked for; a `file:` text is given with the path that `fileURLToPath` makes of it. -/
inductive Specifier where
  | text (t : Text)
  | url (spelled path : Text) (absolute : isAbsolute path = true)

def Specifier.shown : Specifier → Text
  | .text t => t
  | .url spelled _ _ => spelled

structure Context where
  parentURL : Option Url
  conditions : List String

def Context.isRequire (context : Context) : Bool := context.conditions.contains "require"

structure Resolved where
  url : Url
  format : Option Format

structure Failure where
  code : String
  message : String

def notFound (specifier : Text) : Failure :=
  ⟨"MODULE_NOT_FOUND", "Cannot find module '" ++ String.ofList specifier ++ "' (countinghouse module sandbox)"⟩

inductive Rule where
  | builtin
  | uses
  | require
  deriving DecidableEq

/-- What the hooks do beside their answer. -/
inductive Note where
  | report (rule : Rule) (target : Text)
  | resolving (roots : List Text)
  | reading (path : Text)
  | released
  | read (path : Text)

/-- A path as texts give it: names one after the other. -/
def Named (p : Text) : Prop := ∃ names, names ≠ [] ∧ (∀ name ∈ names, Plain name) ∧ p = joined names

def bare (specifier : Text) : Text :=
  if ['n', 'o', 'd', 'e', ':'].isPrefixOf specifier then specifier.drop 5 else specifier

def nodePrefix : Text := ['n', 'o', 'd', 'e', ':']

/-- Node, and the files it reads for the hooks. -/
structure Node where
  isBuiltin : Text → Bool
  resolve : Specifier → Context → Except Failure Resolved
  /-- The text of `pathToFileURL(path).href`. -/
  href : Text → Text
  /-- Whether the specifier names a file in countinghouse's `lib`. -/
  reachesLib : Text → Bool
  /-- The text of a file that can be read, none inside when it is not JSON. -/
  readPackage : Text → Option (Option Json)
  /-- The conditions of a `require.resolve`. -/
  requireConditions : List String
  path_not_builtin : ∀ {t}, isBuiltin t = true → isAbsolute t = false
  own : ∀ {t context answer}, isBuiltin t = true → resolve (.text t) context = .ok answer →
    answer.url = .other (nodePrefix ++ bare t)
  normal : ∀ {s context answer p}, resolve s context = .ok answer → answer.url = .file p → Named p
  schemed : ∀ {s context answer t}, resolve s context = .ok answer → answer.url = .other t → isAbsolute t = false

/-- What a worker is set up with. -/
structure Site where
  mode : Mode
  rootNames : List String
  rooted : rootNames ≠ []
  plain : ∀ name ∈ rootNames, Plain name
  countinghouseRoots : List Text

def Site.moduleRoot (site : Site) : Text := joined site.rootNames

def Site.enforce (site : Site) : Bool := decide (site.mode = .enforce)

def VROOT : Text := ['/', 'a', 'p', 'p']

/-! Paths and URLs. -/
section Mapper

variable (site : Site)

def isVirtual (p : Text) : Bool := insideRoot p VROOT

def toHost (v : Text) : Text := rebase VROOT site.moduleRoot v

def toVirtual (h : Text) : Text := rebase site.moduleRoot VROOT h

def isModuleHost (h : Text) : Bool := insideRoot h site.moduleRoot

structure Parent where
  host : Option Text
  fromModule : Bool

def parentOf : Option Url → Parent
  | some (.file p) => if isVirtual p then ⟨some (toHost site p), true⟩ else ⟨some p, isModuleHost site p⟩
  | _ => ⟨none, true⟩

def MODULE_SPECIFIER : Text :=
  ['c', 'o', 'u', 'n', 't', 'i', 'n', 'g', 'h', 'o', 'u', 's',
   'e', '-', 'm', 'o', 'd', 'u', 'l', 'e', ':']

/-- `path.resolve` of an absolute text. -/
def resolved (p : Text) : Text := (PathTexts.resolve [] (String.ofList p)).toList

theorem resolved_absolute (p : Text) : isAbsolute (resolved p) = true := by
  simp [isAbsolute, resolved, PathTexts.resolve, PathTexts.absoluteText]

/-- `path.posix.join(VROOT, path.posix.resolve('/', rest))` -/
def underVroot (rest : Text) : Text := (PathTexts.join ["/app", PathTexts.resolve [] (String.ofList rest)]).toList

def isRelative (t : Text) : Bool :=
  t == ['.'] || t == ['.', '.'] || ['.', '/'].isPrefixOf t || ['.', '.', '/'].isPrefixOf t

def beside (parent : Parent) (t : Text) : Text :=
  if parent.fromModule && isVirtual t then toHost site t
  else
    match parent.host with
    | some host => if isRelative t then resolved (IdentityPrefix.dirname host ++ '/' :: t) else t
    | none => t

def specifier (s : Specifier) (parent : Parent) : Text :=
  match s with
  | .text t =>
      if MODULE_SPECIFIER.isPrefixOf t then toHost site (underVroot (t.drop MODULE_SPECIFIER.length))
      else beside site parent t
  | .url _ p _ => beside site parent p

def moduleSpecifier (virtualPath : Text) : Text := MODULE_SPECIFIER ++ virtualPath.drop VROOT.length

/-- `specifierFor`, once the hook is installed. -/
def specifierFor (p : Text) : Text := if insideRoot p VROOT then moduleSpecifier p else p

/-- `pathToFileURL(p).href` -/
def fileUrl (p : Text) : Url := .file (resolved p)

def NODE : Text := ['.', 'n', 'o', 'd', 'e']

/-- `path.extname` -/
def extname (p : Text) : Text :=
  let base := (p.reverse.dropWhile (· == '/')).takeWhile (· != '/')
  let ext := base.takeWhile (· != '.')
  match base.dropWhile (· != '.') with
  | [] => []
  | _ :: before => if before = [] ∨ (before = ['.'] ∧ ext = []) then [] else '.' :: ext.reverse

end Mapper

/-! The boundary of module-lockdown.js. -/
section Lockdown

variable (site : Site) (node : Node)

def ALLOWED_BUILTINS : List String :=
  ["_http_agent", "_http_client", "_http_common", "_http_incoming", "_http_outgoing", "_http_server",
   "_stream_duplex", "_stream_passthrough", "_stream_readable", "_stream_transform", "_stream_wrap",
   "_stream_writable", "_tls_common", "_tls_wrap", "assert", "assert/strict", "async_hooks", "buffer",
   "console", "constants", "crypto", "dgram", "diagnostics_channel", "dns", "dns/promises", "domain",
   "events", "fs", "fs/promises", "http", "http2", "https", "module", "net", "os", "path", "path/posix",
   "path/win32", "perf_hooks", "process", "punycode", "querystring", "readline", "readline/promises",
   "stream", "stream/consumers", "stream/promises", "stream/web", "string_decoder", "sys",
   "timers", "timers/promises", "tls", "tty", "url", "util", "util/types", "vm", "zlib"]

def WATCHED : List String :=
  ["fs", "fs/promises", "net", "tls", "http", "https", "http2", "dgram", "dns", "dns/promises"]

def builtinAllowed (id : Text) : Bool := ALLOWED_BUILTINS.contains (String.ofList (bare id))

/-- `Module.isBuiltin`; no `file:` text is one. -/
def isBuiltin : Specifier → Bool
  | .text t => node.isBuiltin t
  | .url _ _ _ => false

def hostOf (file : Text) : Text := if isVirtual file then toHost site file else file

def inside (file : Text) : Bool := isModuleHost site (hostOf site file)

def fromModule : Option Url → Bool
  | none => false
  | some (.file p) => inside site p
  | some (.other t) => !nodePrefix.isPrefixOf t

def insideUrl : Url → Bool
  | .file p => inside site p
  | .other _ => false

def answered : Except Failure Resolved → Run Note Failure Resolved
  | .ok answer => pure answer
  | .error e => fail e

def REDUCED : Text :=
  ['c', 'o', 'u', 'n', 't', 'i', 'n', 'g', 'h', 'o', 'u', 's',
   'e', '-', 'l', 'o', 'c', 'k', 'd', 'o', 'w', 'n', ':', 'm', 'o', 'd', 'u', 'l', 'e']

def reduced : Resolved := ⟨.other REDUCED, some .commonjs⟩

def isModuleBuiltin (s : Specifier) : Bool := bare s.shown == ['m', 'o', 'd', 'u', 'l', 'e']

/-- A built-in, for whoever asks. -/
def lockdownBuiltin (s : Specifier) (context : Context) : Run Note Failure Resolved := do
  let b := bare s.shown
  onlyIf (!builtinAllowed b) (violate site.enforce (.report .builtin b) (notFound s.shown))
  onlyIf (fromModule site context.parentURL && WATCHED.contains (String.ofList b)) (note (.report .uses b))
  if fromModule site context.parentURL && isModuleBuiltin s && site.enforce then pure reduced
  else answered (node.resolve s context)

/-- Everything else: what Node finds, if the module may have it. -/
def lockdownFile (s : Specifier) (context : Context) : Run Note Failure Resolved :=
  match node.resolve s context with
  | .error e => do
      onlyIf (fromModule site context.parentURL && e.code == "MODULE_NOT_FOUND" && node.reachesLib s.shown)
        (violate site.enforce (.report .require s.shown) (notFound s.shown))
      fail e
  | .ok answer => do
      onlyIf (fromModule site context.parentURL && !insideUrl site answer.url)
        (violate site.enforce (.report .require (sliceUnits 200 s.shown)) (notFound (sliceUnits 200 s.shown)))
      pure answer

def lockdown (s : Specifier) (context : Context) : Run Note Failure Resolved :=
  if isBuiltin node s then lockdownBuiltin site node s context else lockdownFile site node s context

/-- `nextResolve` of the identity hook: under `--moduleSandbox off` there is no boundary. -/
def nextResolve (s : Specifier) (context : Context) : Run Note Failure Resolved :=
  if site.mode = .off then answered (node.resolve s context) else lockdown site node s context

end Lockdown

/-! The identity hook. -/
section Identity

variable (site : Site) (node : Node)

def bound (hostPath : Text) (fromModule : Bool) (shown : Text) : Run Note Failure Unit :=
  if isModuleHost site hostPath then pure ()
  else if !fromModule && site.countinghouseRoots.any fun r => insideRoot hostPath r then pure ()
  else if site.mode = .off then pure ()
  else violate site.enforce (.report .require (sliceUnits 200 shown)) (notFound (sliceUnits 200 shown))

def packageFile (dir : Text) : Text := (PathTexts.join [String.ofList dir, "package.json"]).toList

def typeOf : Option Json → Format
  | none => .commonjs
  | some json => if sameValue (memberOrNull json "type") (.string "module") then .module else .commonjs

/-- The loop of `packageType`, from a directory up. -/
def packageTypeFrom : Nat → Text → Run Note Failure Format
  | 0, _ => pure .commonjs
  | fuel + 1, dir =>
      if insideRoot dir site.moduleRoot then do
        note (.read (packageFile dir))
        match node.readPackage (packageFile dir) with
        | some json => pure (typeOf json)
        | none =>
            if dir = site.moduleRoot ∨ dir = IdentityPrefix.dirname dir then pure .commonjs
            else packageTypeFrom fuel (IdentityPrefix.dirname dir)
      else pure .commonjs

/-- A directory is shorter than what is in it, so the length is enough for the loop. -/
def packageType (hostFile : Text) : Run Note Failure Format :=
  packageTypeFrom site node hostFile.length (IdentityPrefix.dirname hostFile)

def formatOf (hostFile : Text) : Run Note Failure Format :=
  let ext := extname hostFile
  if ext = ['.', 'j', 's', 'o', 'n'] then pure .json
  else if ext = ['.', 'm', 'j', 's'] then pure .module
  else if ext = ['.', 'c', 'j', 's'] then pure .commonjs
  else do
    let type ← packageType site node hostFile
    pure (if type = .module then .module else .commonjs)

/-- What the search comes to: an answer that is no file, or a file on the host. -/
inductive Found where
  | away (answer : Resolved)
  | host (path : Text) (format : Option Format)

def toUrl (t : Text) : Specifier := .url (node.href t) (resolved t) (resolved_absolute t)

/-- A module's `require`: resolved against the host parent. -/
def requireFrom (host t : Text) (context : Context) : Run Note Failure Found := do
  let answer ← nextResolve site node (.text t) ⟨some (fileUrl host), node.requireConditions⟩
  match answer.url with
  | .file p => pure (.host p none)
  | .other id =>
      if node.isBuiltin id then do
        let builtin ← nextResolve site node (.text id) context
        pure (.away builtin)
      else pure (.host id none)

def askNext (host : Option Text) (t : Text) (context : Context) : Run Note Failure Found := do
  let asked := if isAbsolute t && !context.isRequire then toUrl node t else .text t
  let answer ← nextResolve site node asked { context with parentURL := (host.map fileUrl).or context.parentURL }
  match answer.url with
  | .file p => pure (.host p answer.format)
  | .other _ => pure (.away answer)

def search (parent : Parent) (t : Text) (context : Context) : Run Note Failure Found :=
  match parent.host with
  | some host =>
      if parent.fromModule && context.isRequire then requireFrom site node host t context
      else askNext site node (some host) t context
  | none => askNext site node none t context

/-- Whether Node loads the file itself, a CommonJS file that an import has reached. -/
def importedCjs (path : Text) (format : Option Format) (context : Context) : Run Note Failure Bool :=
  if isModuleHost site path then
    match format with
    | some format => pure (decide (format = .commonjs) && !context.isRequire)
    | none => do
        let format ← formatOf site node path
        pure (decide (format = .commonjs) && !context.isRequire)
  else pure false

def answerHost (path : Text) (format : Option Format) (context : Context) : Run Note Failure Resolved := do
  let cjs ← importedCjs site node path format context
  if isModuleHost site path && extname path != NODE && !cjs then
    pure ⟨fileUrl (toVirtual site path), format⟩
  else do
    onlyIf cjs do
      note (.resolving [path])
      note (.reading path)
    pure ⟨fileUrl path, format⟩

def lookupRoots (fromModule : Bool) : List Text :=
  if fromModule then [site.moduleRoot] else site.moduleRoot :: site.countinghouseRoots

def resolve (s : Specifier) (context : Context) : Run Note Failure Resolved :=
  if isBuiltin node s then nextResolve site node s context
  else do
    let parent := parentOf site context.parentURL
    note (.resolving (lookupRoots site parent.fromModule))
    let found ← (search site node parent (specifier site s parent) context).lastly .released
    match found with
    | .away answer => pure answer
    | .host path format => do
        bound site path parent.fromModule s.shown
        answerHost site node path format context

/-- The load hook: what it reads, or lets Node read. -/
def load : Url → Run Note Failure Unit
  | .file p =>
      if isVirtual p && extname p != NODE then do
        let _ ← formatOf site node (toHost site p)
        note (.read (toHost site p))
      else (note (.reading p)).lastly .released
  | .other _ => pure ()

end Identity

/-! Names and texts. -/
section Names

theorem joined_text {names : List String} (some : names ≠ []) : String.ofList (joined names) = PathTexts.absoluteText names := by
  apply String.toList_inj.mp
  rw [String.toList_ofList]
  induction names with
  | nil => exact absurd rfl some
  | cons name rest ih =>
      cases rest with
      | nil => simp [PathTexts.absoluteText]
      | cons next rest =>
          have tail := ih (by simp)
          rw [NamespacePaths.joined_cons, tail]
          simp [PathTexts.absoluteText, String.intercalate_cons_cons]

/-- An absolute text without dots resolves to itself. -/
theorem resolved_joined {names : List String} (some : names ≠ []) (plain : ∀ name ∈ names, Plain name) :
    resolved (joined names) = joined names := by
  rw [resolved, joined_text some, resolve_absoluteText [] some plain, ← joined_text some, String.toList_ofList]

theorem joined_tail (names : List String) : Tail '/' (joined names) := by
  cases names with
  | nil => exact .inl rfl
  | cons name rest => exact .inr ⟨name.toList ++ joined rest, by simp⟩

/-- Names are read back from a text up to where a tail begins. -/
theorem append_tail_inj {first second front back : Text} (free : '/' ∉ first) (otherFree : '/' ∉ second)
    (tail : Tail '/' front) (otherTail : Tail '/' back) (same : first ++ front = second ++ back) :
    first = second ∧ front = back := by
  rcases List.append_eq_append_iff.1 same with ⟨between, secondIs, frontIs⟩ | ⟨between, firstIs, backIs⟩
  · cases between with
    | nil => exact ⟨by simpa using secondIs.symm, by simpa using frontIs⟩
    | cons c rest =>
        rcases tail with none | ⟨more, rfl⟩
        · simp [none] at frontIs
        · obtain ⟨rfl, _⟩ := List.cons.inj frontIs
          exact absurd (by simp [secondIs]) otherFree
  · cases between with
    | nil => exact ⟨by simpa using firstIs, by simpa using backIs.symm⟩
    | cons c rest =>
        rcases otherTail with none | ⟨more, rfl⟩
        · simp [none] at backIs
        · obtain ⟨rfl, _⟩ := List.cons.inj backIs
          exact absurd (by simp [firstIs]) free

theorem joined_front {front names : List String} {rest : Text} (free : ∀ name ∈ front, '/' ∉ name.toList)
    (otherFree : ∀ name ∈ names, '/' ∉ name.toList) (tail : Tail '/' rest) (same : joined front ++ rest = joined names) :
    ∃ more, names = front ++ more ∧ rest = joined more := by
  induction front generalizing names with
  | nil => exact ⟨names, rfl, by simpa using same⟩
  | cons name front ih =>
      cases names with
      | nil => simp at same
      | cons other names =>
          have behind : name.toList ++ (joined front ++ rest) = other.toList ++ joined names := by simpa using same
          obtain ⟨sameName, sameRest⟩ := append_tail_inj (free name (by simp)) (otherFree other (by simp))
            (tail_append (joined_tail front) tail) (joined_tail names) behind
          obtain ⟨more, namesAre, restIs⟩ := ih (fun n mem => free n (List.mem_cons_of_mem name mem))
            (fun n mem => otherFree n (List.mem_cons_of_mem other mem)) sameRest
          exact ⟨more, by rw [namesAre, String.toList_inj.mp sameName, List.cons_append], restIs⟩

/-- A path of the tree of names under the root. -/
def InTree (root : List String) (p : Text) : Prop := ∃ rest, (∀ name ∈ rest, Plain name) ∧ p = joined (root ++ rest)

theorem in_tree_of_inside {root : List String} (plain : ∀ name ∈ root, Plain name) {p : Text} (named : Named p)
    (within : insideRoot p (joined root) = true) : InTree root p := by
  obtain ⟨rest, tail, whole⟩ := (inside_iff _ _).1 within
  obtain ⟨names, _, plainNames, rfl⟩ := named
  obtain ⟨more, rfl, _⟩ := joined_front (fun name mem => (plain name mem).2) (fun name mem => (plainNames name mem).2) tail
    whole.symm
  exact ⟨more, fun name mem => plainNames name (List.mem_append_right root mem), rfl⟩

theorem InTree.inside {root : List String} {p : Text} (tree : InTree root p) : insideRoot p (joined root) = true := by
  obtain ⟨rest, _, rfl⟩ := tree
  rw [NamespacePaths.joined_append]
  exact inside_append (joined_tail rest)

theorem InTree.named {root : List String} (some : root ≠ []) (plain : ∀ name ∈ root, Plain name) {p : Text}
    (tree : InTree root p) : Named p := by
  obtain ⟨rest, plainRest, rfl⟩ := tree
  exact ⟨root ++ rest, by simp [some], fun name mem => (List.mem_append.1 mem).elim (plain name) (plainRest name), rfl⟩

theorem Named.resolved_eq {p : Text} (named : Named p) : resolved p = p := by
  obtain ⟨names, some, plain, rfl⟩ := named
  exact resolved_joined some plain

/-- One root in the place of another. -/
theorem InTree.rebase {old new : List String} {p : Text} (tree : InTree old p) :
    InTree new (TextRoots.rebase (joined old) (joined new) p) := by
  obtain ⟨rest, plain, rfl⟩ := tree
  exact ⟨rest, plain, by rw [NamespacePaths.joined_append, rebase_append, NamespacePaths.joined_append]⟩

theorem named_length {name : String} (plain : Plain name) : 0 < name.toList.length := by
  apply List.length_pos_iff.2
  intro none
  exact PathTexts.plain_ne_empty plain (String.toList_inj.mp (by simpa using none))

/-- The extension is that of the last name. -/
theorem extname_append {front last : Text} (someName : last ≠ []) (free : '/' ∉ last) :
    extname (front ++ '/' :: last) = extname ('/' :: last) := by
  have base := @ThreadFacade.last_name front last someName free
  have alone := @ThreadFacade.last_name [] last someName free
  rw [List.nil_append] at alone
  simp only [extname, base, alone]

theorem absoluteText_unended {names : List String} (some : names ≠ []) (plain : ∀ name ∈ names, Plain name) :
    (PathTexts.absoluteText names).toList.getLast? ≠ .some '/' := by
  rw [← joined_text some, String.toList_ofList]
  obtain ⟨front, last, rfl⟩ := List.eq_nil_or_concat names |>.resolve_left some
  have named := plain last (by simp)
  cases chars : last.toList.reverse with
  | nil => exact absurd (String.toList_inj.mp (by simpa using chars)) (PathTexts.plain_ne_empty named)
  | cons c more =>
      have ends : last.toList = more.reverse ++ [c] := by simpa using congrArg List.reverse chars
      have other : c ≠ '/' := by
        rintro rfl
        exact named.2 (by simp [ends])
      have shape : joined (front.concat last) = (joined front ++ '/' :: more.reverse) ++ [c] := by simp [ends]
      rw [shape, List.getLast?_concat]
      simpa using other

/-- A text without dots is normalised. -/
theorem normalize_absoluteText {names : List String} (some : names ≠ []) (plain : ∀ name ∈ names, Plain name) :
    PathTexts.normalize (PathTexts.absoluteText names) = PathTexts.absoluteText names := by
  have nonempty : PathTexts.absoluteText names ≠ "" := by simp [PathTexts.absoluteText]
  have parts : PathTexts.normalizeString false [] ("" :: names) = names := by
    rw [PathTexts.normalizeString]
    exact normalizeString_plain false [] plain
  have shown : "/".intercalate names ≠ "" := fun empty =>
    some (PathTexts.intercalate_eq_empty (fun name mem => PathTexts.plain_ne_empty (plain name mem)) empty)
  simp only [PathTexts.normalize, if_neg nonempty, absolute_absoluteText, Bool.not_true, split_absoluteText some plain, parts,
    if_neg shown, if_neg (absoluteText_unended some plain)]
  simp [PathTexts.absoluteText]

theorem package_file_joined {names : List String} (some : names ≠ []) (plain : ∀ name ∈ names, Plain name) :
    packageFile (joined names) = joined (names ++ ["package.json"]) := by
  have longer : ∀ name ∈ names ++ ["package.json"], Plain name := by
    intro name mem
    rcases List.mem_append.1 mem with old | new
    · exact plain name old
    · rw [List.mem_singleton.1 new]
      decide
  have nonempty : PathTexts.absoluteText names ≠ "" := by simp [PathTexts.absoluteText]
  have whole : PathTexts.absoluteText names ++ "/" ++ "package.json" = PathTexts.absoluteText (names ++ ["package.json"]) := by
    rw [← joined_text some, ← joined_text (by simp)]
    apply String.toList_inj.mp
    simp
  have kept : [PathTexts.absoluteText names, "package.json"].filter (fun arg => arg != "") =
      [PathTexts.absoluteText names, "package.json"] := by
    rw [List.filter_eq_self]
    intro arg mem
    rcases List.mem_cons.1 mem with rfl | last
    · simpa using nonempty
    · rw [List.mem_singleton.1 last]
      decide
  rw [packageFile, joined_text some, PathTexts.join, kept, String.intercalate_cons_cons, String.intercalate_singleton, whole,
    normalize_absoluteText (by simp) longer, ← joined_text (by simp), String.toList_ofList]

theorem package_file_in_tree {root : List String} (some : root ≠ []) (plain : ∀ name ∈ root, Plain name) {dir : Text}
    (tree : InTree root dir) : InTree root (packageFile dir) := by
  obtain ⟨rest, plainRest, rfl⟩ := tree
  refine ⟨rest ++ ["package.json"], ?_, ?_⟩
  · intro name mem
    rcases List.mem_append.1 mem with old | new
    · exact plainRest name old
    · rw [List.mem_singleton.1 new]
      decide
  · rw [package_file_joined (by simp [some]) fun name mem => (List.mem_append.1 mem).elim (plain name) (plainRest name),
      List.append_assoc]

theorem dirname_joined {names : List String} {last : String} (some : names ≠ []) (plain : ∀ name ∈ names, Plain name)
    (plainLast : Plain last) : IdentityPrefix.dirname (joined (names ++ [last])) = joined names := by
  have long : 2 ≤ (joined names).length := by
    cases names with
    | nil => exact absurd rfl some
    | cons name rest =>
        have visible := named_length (plain name (by simp))
        simp only [NamespacePaths.joined_cons, List.length_cons, List.length_append]
        omega
  have someLast : last.toList ≠ [] := List.length_pos_iff.1 (named_length plainLast)
  have shape : joined (names ++ [last]) = joined names ++ '/' :: last.toList := by simp
  rw [shape, ThreadFacade.dirname_append someLast plainLast.2 long]

/-- The directory of the root is no directory of the tree. -/
theorem dirname_root {root : List String} (some : root ≠ []) (plain : ∀ name ∈ root, Plain name) :
    insideRoot (IdentityPrefix.dirname (joined root)) (joined root) = false := by
  obtain ⟨front, last, rfl⟩ := List.eq_nil_or_concat root |>.resolve_left some
  have plainLast := plain last (by simp)
  have visible := named_length plainLast
  rw [List.concat_eq_append] at plain ⊢
  rw [Bool.eq_false_iff]
  intro within
  have short := inside_length within
  by_cases nil : front = []
  · have shape : joined (front ++ [last]) = '/' :: last.toList := by simp [nil]
    rw [shape, ThreadFacade.dirname_top (List.length_pos_iff.1 visible) plainLast.2, ← shape, nil] at short
    simp only [List.nil_append, NamespacePaths.joined_cons, NamespacePaths.joined_nil, List.append_nil, List.length_cons,
      List.length_nil] at short
    omega
  · rw [dirname_joined nil (fun name mem => plain name (List.mem_append_left _ mem)) plainLast] at short
    simp only [NamespacePaths.joined_append, NamespacePaths.joined_cons, NamespacePaths.joined_nil, List.append_nil,
      List.length_append, List.length_cons] at short
    omega

/-- The directory of a path in the tree is in the tree, if it is inside the root. -/
theorem dirname_in_tree {root : List String} (some : root ≠ []) (plain : ∀ name ∈ root, Plain name) {p : Text}
    (tree : InTree root p) (within : insideRoot (IdentityPrefix.dirname p) (joined root) = true) :
    InTree root (IdentityPrefix.dirname p) := by
  obtain ⟨rest, plainRest, rfl⟩ := tree
  rcases List.eq_nil_or_concat rest with rfl | ⟨front, last, rfl⟩
  · rw [List.append_nil, dirname_root some plain] at within
    cases within
  · rw [List.concat_eq_append] at plainRest ⊢
    have plainFront : ∀ name ∈ root ++ front, Plain name := fun name mem =>
      (List.mem_append.1 mem).elim (plain name) fun old => plainRest name (List.mem_append_left _ old)
    rw [← List.append_assoc, dirname_joined (by simp [some]) plainFront (plainRest last (by simp))]
    exact ⟨front, fun name mem => plainRest name (List.mem_append_left _ mem), rfl⟩

end Names

end Countinghouse.LoaderHooks
