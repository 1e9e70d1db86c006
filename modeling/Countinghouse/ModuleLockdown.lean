import Mathlib
import Countinghouse.CappedReports
import Countinghouse.ModulePermissions

/-!
What lib/module-lockdown.js reports of a module, and what it lets through of the requests that the
module makes with `CHUtil.request`. The parser of URLs is a parameter, and so is the library that
makes the requests.
-/

namespace Countinghouse.ModuleLockdown

open CappedReports
open ModulePermissions (Builtins NetEntry hostAllowed)
open PlainObject (Table setKey deleteKey setKey_mem mem_deleteKey lookup_setKey lookup_deleteKey)
open RedisMetering (Json)

/-! Reports. -/
section Reports

structure Violation where
  rule : String
  target : String
  deriving DecidableEq

def MAX_REPORTS : Nat := 100

def NUL : Char := Char.ofNat 0

def keyText (violation : Violation) : List Char := violation.rule.toList ++ NUL :: violation.target.toList

def suppressed : Violation := ⟨"suppressed", ""⟩

def reportOf : Report Violation → Violation
  | .item violation => violation
  | .mark => suppressed

/-- What `once` reports of so many violations; the broker's `report` is the same. -/
def reports (violations : List Violation) : List Violation := (run MAX_REPORTS keyText [] violations).2.map reportOf

theorem key_text_inj {first second : Violation} (plain : NUL ∉ first.rule.toList) (otherPlain : NUL ∉ second.rule.toList)
    (same : keyText first = keyText second) : first = second := by
  obtain ⟨rule, target⟩ := first
  obtain ⟨otherRule, otherTarget⟩ := second
  have both : rule.toList = otherRule.toList ∧ target.toList = otherTarget.toList := by
    rcases List.append_eq_append_iff.1 same with ⟨between, ruleIs, restIs⟩ | ⟨between, ruleIs, restIs⟩
    · cases between with
      | nil => exact ⟨by simpa using ruleIs.symm, by simpa using restIs⟩
      | cons c more =>
          obtain ⟨rfl, _⟩ := List.cons.inj restIs
          exact absurd (by simp [ruleIs]) otherPlain
    · cases between with
      | nil => exact ⟨by simpa using ruleIs, by simpa using restIs.symm⟩
      | cons c more =>
          obtain ⟨rfl, _⟩ := List.cons.inj restIs
          exact absurd (by simp [ruleIs]) plain
  rw [String.toList_inj.mp both.1, String.toList_inj.mp both.2]

/-- Whatever a module does and however often, its distinct violations are reported in order up to the cap, and one
that comes after that by a single word. -/
theorem reports_distinct (violations : List Violation) (plain : ∀ v ∈ violations, NUL ∉ v.rule.toList) :
    reports violations = violations.eraseDups.take MAX_REPORTS ++
      (if MAX_REPORTS < violations.eraseDups.length then [suppressed] else []) := by
  have apart : ∀ a ∈ violations, ∀ b ∈ violations, keyText a = keyText b → a = b :=
    fun a inA b inB same => key_text_inj (plain a inA) (plain b inB) same
  rw [reports, run_told, firsts_eraseDups apart, told, List.map_append, List.map_map]
  congr 1
  · exact List.map_id _
  · split <;> rfl

theorem reports_twice : reports [⟨"net", "a:80"⟩, ⟨"uses", "fs"⟩, ⟨"net", "a:80"⟩] =
    [⟨"net", "a:80"⟩, ⟨"uses", "fs"⟩, ⟨"net", "a:80"⟩].eraseDups.take MAX_REPORTS ++
      (if MAX_REPORTS < [⟨"net", "a:80"⟩, ⟨"uses", "fs"⟩, (⟨"net", "a:80"⟩ : Violation)].eraseDups.length then [suppressed]
        else []) :=
  reports_distinct _ (by decide)

end Reports

/-! Requests. -/
section Requests

/-- The fields of a `URL` that are read; the port is none when it is the default of the protocol. -/
structure Parsed where
  hostname : String
  port : Option Nat
  isHttps : Bool
  href : String

structure Response where
  location : Option String

/-- A value among the options of a request. -/
inductive Value (Other : Type) where
  | undefined
  | null
  | bool (value : Bool)
  | string (text : String)
  /-- An object, with its `href` when that is a text. -/
  | object (href : Option String) (rest : Other)
  /-- A function that leaves the request it is called on alone, by whether its answer is true. -/
  | function (answer : Response → Bool)
  | other (value : Other)

/-- What `new URL` makes of a text, and of a redirect's location next to the URL it came from. -/
structure Urls where
  parse : String → Option Parsed
  /-- `new URL(location, base).href` -/
  relative : Option String → String → Option String
  /-- The text of a URL stands for that URL. -/
  href_parse : ∀ {text parsed}, parse text = some parsed →
    ∃ again, parse parsed.href = some again ∧ again.hostname = parsed.hostname ∧ again.port = parsed.port ∧
      again.isHttps = parsed.isHttps

variable (js : Builtins) (urls : Urls) (net : List NetEntry) {Other : Type}

structure HostPort where
  host : String
  port : Nat
  href : String

def hostPort (href : String) : Option HostPort :=
  (urls.parse href).map fun u => ⟨u.hostname, u.port.getD (if u.isHttps then 443 else 80), u.href⟩

def allowed (target : HostPort) : Bool := hostAllowed js net target.host (.number target.port)

/-- `${host}:${port}` -/
def HostPort.shown (target : HostPort) : String := target.host ++ ":" ++ toString target.port

def REQUEST_OPTIONS : List String :=
  ["method", "headers", "body", "json", "form", "formData", "multipart",
   "preambleCRLF", "postambleCRLF", "qs", "qsParseOptions", "qsStringifyOptions", "useQuerystring", "timeout",
   "gzip", "brotli", "encoding", "auth", "oauth", "hawk", "aws", "httpSignature", "jar", "followRedirect",
   "followOriginalHttpMethod", "maxRedirects", "removeRefererHeader", "strictSSL", "rejectUnauthorized", "ca",
   "cert", "key", "passphrase", "time", "callback", "url", "uri"]

/-- What a module passes: a text, an object, or something else. -/
inductive Given (Other : Type) where
  | text (uri : String)
  | options (fields : Table (Value Other))
  | other

def isUndefined : Value Other → Bool
  | .undefined => true
  | _ => false

def isNullish : Value Other → Bool
  | .undefined => true
  | .null => true
  | _ => false

/-- The loop over the keys: the values that are there, or the first key that may not be. -/
def copyOptions : Table (Value Other) → Except String (Table (Value Other))
  | [] => .ok []
  | (key, value) :: rest =>
      if isUndefined value then copyOptions rest
      else if key ∉ REQUEST_OPTIONS then .error key
      else
        match copyOptions rest with
        | .error refused => .error refused
        | .ok options => .ok ((key, value) :: options)

def optionOf (options : Table (Value Other)) (key : String) : Value Other := (options.lookup key).getD .undefined

/-- `options.uri != null ? options.uri : options.url`, and the `href` of an object. -/
def targetOf (options : Table (Value Other)) : Option String :=
  match (if isNullish (optionOf options "uri") then optionOf options "url" else optionOf options "uri") with
  | .string text => some text
  | .object href _ => href
  | _ => none

/-- Whether a redirect is followed: never, as the guard says, or as a module's function says behind the guard. -/
inductive Follow where
  | never
  | guarded (original : Option (Response → Bool))

/-- The options that are passed on, `followRedirect` apart. -/
structure Options (Other : Type) where
  fields : Table (Value Other)
  follow : Follow

/-- `followRedirect` as it is passed on; anything but a function is taken for true behind the guard. -/
def followOf : Value Other → Follow
  | .bool false => .never
  | .function answer => .guarded (some answer)
  | _ => .guarded none

/-- The options, or what is refused. -/
def normaliseRequestOptions (given : Given Other) : Except String (Options Other) :=
  let fields : Option (Table (Value Other)) :=
    match given with
    | .text uri => some [("uri", .string uri)]
    | .options fields => some fields
    | .other => none
  match fields with
  | none => .error "invalid"
  | some fields =>
      match copyOptions fields with
      | .error key => .error key
      | .ok options =>
          match (targetOf options).bind (hostPort urls) with
          | none => .error "invalid"
          | some parsed =>
              if allowed js net parsed then
                let passed := setKey (setKey (deleteKey options "url") "uri" (.string parsed.href)) "proxy" .null
                .ok ⟨passed, followOf (optionOf options "followRedirect")⟩
              else .error parsed.shown

/-- The guarded `followRedirect`, asked by a request to `current`: whether to go on, and what is reported. -/
def followRedirect (follow : Follow) (current : String) (response : Response) : Bool × List Violation :=
  match follow with
  | .never => (false, [])
  | .guarded original =>
      match (urls.relative response.location current).bind (hostPort urls) with
      | none => (false, [⟨"net", "invalid"⟩])
      | some next =>
          if allowed js net next then ((original.map fun answer => answer response).getD true, [])
          else (false, [⟨"net", next.shown⟩])

/-- What is answered at once, or passed on to the library. -/
inductive Request (Other : Type) where
  | denied (what : String)
  | asGiven (given : Given Other)
  | normalised (options : Options Other)

/-- `CHUtil.request` -/
def request (enforce : Bool) (given : Given Other) : List Violation × Request Other :=
  match normaliseRequestOptions js urls net given with
  | .error refusal =>
      ([⟨"net", refusal⟩], if enforce then .denied ("network access to " ++ refusal) else .asGiven given)
  | .ok options => ([], if enforce then .normalised options else .asGiven given)

end Requests

/-! Where requests go. -/
section Destinations

variable {js : Builtins} {urls : Urls} {net : List NetEntry} {Other : Type}

/-- A URL that the module may have. -/
def Allowed (js : Builtins) (urls : Urls) (net : List NetEntry) (uri : String) : Prop :=
  ∃ target, hostPort urls uri = some target ∧ allowed js net target = true

/-- The library: from one URL to the next it goes where the location leads, as `URL` reads it. -/
structure Client (urls : Urls) where
  next : String → Response → String
  goes : ∀ {current response href}, urls.relative response.location current = some href → next current response = href

/-- The URLs that a request asks for, when it is answered with so many redirects. -/
def contacted (js : Builtins) (net : List NetEntry) (client : Client urls) (follow : Follow) (current : String) :
    List Response → List String
  | [] => [current]
  | response :: rest =>
      if (followRedirect js urls net follow current response).1 then
        current :: contacted js net client follow (client.next current response) rest
      else [current]

theorem followed_allowed {client : Client urls} {follow : Follow} {current : String} {response : Response}
    (goes : (followRedirect js urls net follow current response).1 = true) :
    Allowed js urls net (client.next current response) := by
  cases follow with
  | never => cases goes
  | guarded original =>
      simp only [followRedirect] at goes
      cases href : urls.relative response.location current with
      | none => simp [href] at goes
      | some href' =>
          rw [client.goes href]
          cases parsed : hostPort urls href' with
          | none => simp [href, parsed] at goes
          | some next =>
              refine ⟨next, parsed, ?_⟩
              by_contra refused
              simp [href, parsed, refused] at goes

theorem contacted_allowed (client : Client urls) (follow : Follow) {current : String}
    (first : Allowed js urls net current) (responses : List Response) :
    ∀ uri ∈ contacted js net client follow current responses, Allowed js urls net uri := by
  induction responses generalizing current with
  | nil =>
      intro uri member
      rw [List.mem_singleton.1 member]
      exact first
  | cons response rest ih =>
      intro uri member
      unfold contacted at member
      split at member
      · next goes =>
        rcases List.mem_cons.1 member with rfl | later
        · exact first
        · exact ih (followed_allowed goes) uri later
      · rw [List.mem_singleton.1 member]
        exact first

theorem copied_keys {fields options : Table (Value Other)} (copied : copyOptions fields = .ok options) :
    ∀ entry ∈ options, entry.1 ∈ REQUEST_OPTIONS := by
  induction fields generalizing options with
  | nil =>
      cases copied
      simp
  | cons field rest ih =>
      obtain ⟨key, value⟩ := field
      unfold copyOptions at copied
      split at copied
      · exact ih copied
      · split at copied
        · cases copied
        · next listed =>
          cases more : copyOptions rest with
          | error refused =>
              rw [more] at copied
              cases copied
          | ok others =>
              rw [more] at copied
              cases copied
              intro entry member
              rcases List.mem_cons.1 member with rfl | later
              · simpa using listed
              · exact ih more entry later

theorem reparsed {text : String} {target : HostPort} (parsed : hostPort urls text = some target)
    (isAllowed : allowed js net target = true) : Allowed js urls net target.href := by
  obtain ⟨u, isUrl, rfl⟩ := Option.map_eq_some_iff.1 parsed
  obtain ⟨again, isAgain, host, port, protocol⟩ := urls.href_parse isUrl
  refine ⟨_, by rw [hostPort, isAgain, Option.map_some], ?_⟩
  simpa [allowed, host, port, protocol] using isAllowed

/-- A request that enforce lets through: it is made to a URL that the module may have, and so is every redirect that it
follows; and no option but those of the list goes with it, and no proxy. -/
theorem accepted_request_stays (client : Client urls) {given : Given Other} {options : Options Other}
    {violations : List Violation} (sent : request js urls net true given = (violations, .normalised options)) :
    ∃ uri, options.fields.lookup "uri" = some (.string uri) ∧
      (∀ responses, ∀ hop ∈ contacted js net client options.follow uri responses, Allowed js urls net hop) ∧
      options.fields.lookup "proxy" = some .null ∧ options.fields.lookup "url" = none ∧
      ∀ entry ∈ options.fields, entry.1 ∈ REQUEST_OPTIONS ∨ entry.1 = "proxy" := by
  unfold request at sent
  cases normal : normaliseRequestOptions js urls net given with
  | error refusal => simp [normal] at sent
  | ok accepted =>
      rw [normal] at sent
      cases sent
      unfold normaliseRequestOptions at normal
      simp only at normal
      split at normal
      · cases normal
      split at normal
      · cases normal
      next copied =>
      split at normal
      · cases normal
      next parsed target =>
      split at normal
      · next isAllowed =>
        cases normal
        obtain ⟨text, _, isTarget⟩ := Option.bind_eq_some_iff.1 target
        refine ⟨parsed.href, by simp [lookup_setKey], contacted_allowed client _ (reparsed isTarget isAllowed), ?_, ?_, ?_⟩
        · simp [lookup_setKey]
        · simp [lookup_setKey, lookup_deleteKey]
        · intro entry member
          rcases setKey_mem member with before | rfl
          · rcases setKey_mem before with old | rfl
            · exact .inl (copied_keys copied entry (mem_deleteKey.1 old).1)
            · exact .inl (by simp [REQUEST_OPTIONS])
          · exact .inr rfl
      · cases normal

/-- URLs that are only what they are to the witness. -/
def fewUrls : Urls where
  parse text := if text = "http://a.test/" then some ⟨"a.test", none, false, "http://a.test/"⟩ else none
  relative location _ := location
  href_parse := by
    intro text parsed is
    split at is
    · cases is
      exact ⟨_, rfl, rfl, rfl, rfl⟩
    · cases is

def fewClient : Client fewUrls where
  next _ response := response.location.getD ""
  goes := by
    intro current response href is
    simp only [fewUrls] at is
    simp [is]

def aTest : List NetEntry := [⟨"a.test", none⟩]

def fewOptions : Options Unit := ⟨[("uri", .string "http://a.test/"), ("proxy", .null)], .guarded none⟩

theorem few_sent : request ModulePermissions.ascii fewUrls aTest true (.text "http://a.test/") =
    ([], Request.normalised fewOptions) := by
  have isAllowed : allowed ModulePermissions.ascii aTest ⟨"a.test", 80, "http://a.test/"⟩ = true := by decide +kernel
  have parsed : hostPort fewUrls "http://a.test/" = some ⟨"a.test", 80, "http://a.test/"⟩ := by
    simp [hostPort, fewUrls]
  simp [request, normaliseRequestOptions, copyOptions, isUndefined, REQUEST_OPTIONS, targetOf, optionOf, isNullish, parsed,
    isAllowed, deleteKey, setKey, List.lookup_cons, followOf, fewOptions]

theorem accepted_request_stays_at : ∃ uri,
    fewOptions.fields.lookup "uri" = some (.string uri) ∧
      (∀ responses, ∀ hop ∈ contacted ModulePermissions.ascii aTest fewClient fewOptions.follow uri responses,
        Allowed ModulePermissions.ascii fewUrls aTest hop) ∧
      fewOptions.fields.lookup "proxy" = some .null ∧ fewOptions.fields.lookup "url" = none ∧
      ∀ entry ∈ fewOptions.fields, entry.1 ∈ REQUEST_OPTIONS ∨ entry.1 = "proxy" :=
  accepted_request_stays fewClient few_sent

end Destinations

end Countinghouse.ModuleLockdown
