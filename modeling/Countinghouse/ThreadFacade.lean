import Mathlib
import Countinghouse.IdentityPrefix
import Countinghouse.PathTexts
import Countinghouse.TextRoots

/-!
The paths of single-thread mode, lib/single-thread-facade.js: which loaded module a file belongs to,
and what becomes of the paths on their way to the host's `fs` and back. A URL is given with the path
that `fileURLToPath` makes of it; texts are compared by their UTF-16 length.
-/

namespace Countinghouse.ThreadFacade

open TextRoots

abbrev Text := List Char

def length (text : Text) : Nat := (text.map fun c => if c.val < 0x10000 then 1 else 2).sum

def insideRoot (p root : Text) : Bool := inside '/' p root

/-- What `register` keeps of a module. -/
structure Info where
  data : Text
  tmp : Text
  deriving DecidableEq

/-- `modules`, in the order in which its keys were first set. -/
abbrev Modules := List (Text × Info)

/-! The facade. -/
section Facade

def register (modules : Modules) (hostRoot : Text) (info : Info) : Modules :=
  if modules.any fun entry => entry.1 == hostRoot then
    modules.map fun entry => if entry.1 == hostRoot then (hostRoot, info) else entry
  else modules ++ [(hostRoot, info)]

def rootOf (modules : Modules) (hostFile : Text) : Option Text := longest '/' length (modules.map Prod.fst) hostFile

def vApp : Text := ['/', 'a', 'p', 'p']
def vData : Text := ['/', 'd', 'a', 't', 'a']
def vTmp : Text := ['/', 't', 'm', 'p']

def isAbsolute (p : Text) : Bool := p.head? == some '/'

def fromApp (p : Text) : Text := (PathTexts.resolve ["app"] (String.ofList p)).toList

def toHost (root : Text) (m : Info) (p : Text) : Text :=
  let s := if isAbsolute p then p else fromApp p
  if insideRoot s vApp then rebase vApp root s
  else if insideRoot s vData then rebase vData m.data s
  else if insideRoot s vTmp then rebase vTmp m.tmp s
  else s

def toVirtual (root : Text) (m : Info) (h : Text) : Text :=
  if insideRoot h m.data then rebase m.data vData h
  else if insideRoot h m.tmp then rebase m.tmp vTmp h
  else if insideRoot h root then rebase root vApp h
  else h

/-- An argument of a call; the first three are `pathLike`. -/
inductive Arg (Value : Type) where
  | string (text : Text)
  | url (href path : Text)
  | buffer (text : Text)
  | other (value : Value)

/-- What a directory listing holds. -/
inductive Entry (Value : Type) where
  | dirent (name parentPath : Text)
  | other (value : Value)

inductive Result (Value : Type) where
  | string (text : Text)
  | list (entries : List (Entry Value))
  | other (value : Value)

structure Failure (Value : Type) where
  path : Option Text
  dest : Option Text
  rest : Value

def twoPaths : List String :=
  ["rename", "renameSync", "copyFile", "copyFileSync", "link", "linkSync", "cp", "cpSync"]

def resultPath : List String := ["realpath", "realpathSync", "mkdtemp", "mkdtempSync", "mkdir", "mkdirSync"]

def isSymlink (key : String) : Bool := "symlink".toList.isPrefixOf key.toList

variable {Value : Type}

def translateError (root : Text) (m : Info) (e : Failure Value) : Failure Value :=
  { e with path := e.path.map (toVirtual root m), dest := e.dest.map (toVirtual root m) }

def translateEntry (root : Text) (m : Info) : Entry Value → Entry Value
  | .dirent name parentPath => .dirent name (toVirtual root m parentPath)
  | .other value => .other value

def translateResult (root : Text) (m : Info) (key : String) : Result Value → Result Value
  | .string text => if key ∈ resultPath then .string (toVirtual root m text) else .string text
  | .list entries => .list (entries.map (translateEntry root m))
  | .other value => .other value

def translateArg (root : Text) (m : Info) : Arg Value → Arg Value
  | .string text => .string (toHost root m text)
  | .url _ path => .string (toHost root m path)
  | .buffer text => .string (toHost root m text)
  | .other value => .other value

/-- The target of a link is translated only when its text is absolute, which a URL's is not. -/
def translateTarget (root : Text) (m : Info) : Arg Value → Arg Value
  | .string text => if isAbsolute text then .string (toHost root m text) else .string text
  | .buffer text => if isAbsolute text then .string (toHost root m text) else .buffer text
  | arg => arg

def translateArgs (root : Text) (m : Info) (key : String) (args : List (Arg Value)) : List (Arg Value) :=
  if isSymlink key then
    match args with
    | target :: path :: rest => translateTarget root m target :: translateArg root m path :: rest
    | args => args.map (translateTarget root m)
  else
    let n := if key ∈ twoPaths then 2 else 1
    (args.take n).map (translateArg root m) ++ args.drop n

abbrev Outcome (Value : Type) := Except (Failure Value) (Result Value)

def translateOutcome (root : Text) (m : Info) (key : String) : Outcome Value → Outcome Value
  | .ok result => .ok (translateResult root m key result)
  | .error e => .error (translateError root m e)

/-- A call of a wrapped function, in any of its forms: `fn` is the host's. -/
def wrapFn (root : Text) (m : Info) (key : String) (fn : List (Arg Value) → Outcome Value) (args : List (Arg Value)) :
    Outcome Value :=
  translateOutcome root m key (fn (translateArgs root m key args))

/-- The frames that `captureStackTrace` keeps, as long as nobody sets another number. -/
def stackTraceLimit : Nat := 10

/-- The files of the calling frames, from the innermost on; none for a frame without one. -/
def hostFromCaller (modules : Modules) (frames : List (Option Text)) (p : Text) : Text :=
  match (frames.take stackTraceLimit).findSome? fun file => file.bind (rootOf modules) with
  | none => p
  | some root =>
      match modules.lookup root with
      | none => p
      | some m => toHost root m p

/-- The path that `CHUtil.loadFile` requires; the hook of the identity is not installed in this mode. -/
def loadFile (cwd : List String) (modules : Modules) (frames : List (Option Text)) (name : Text) : Text :=
  let p := (PathTexts.resolve cwd (String.ofList name)).toList
  if insideRoot p vApp then hostFromCaller modules frames p else p

end Facade

/-! Which module a file belongs to. -/
section Roots

theorem length_grows (root rest : Text) (some : rest ≠ []) : length root < length (root ++ rest) := by
  cases rest with
  | nil => exact absurd rfl some
  | cons c more =>
      have counted : 0 < if c.val < 0x10000 then 1 else 2 := by split <;> omega
      simp only [length, List.map_append, List.map_cons, List.sum_append, List.sum_cons]
      omega

theorem mem_register (modules : Modules) (hostRoot root : Text) (info : Info) :
    root ∈ (register modules hostRoot info).map Prod.fst ↔ root = hostRoot ∨ root ∈ modules.map Prod.fst := by
  simp only [register]
  split
  next known =>
    obtain ⟨entry, member, same⟩ := List.any_eq_true.1 known
    have keys : (modules.map fun entry => if entry.1 == hostRoot then (hostRoot, info) else entry).map Prod.fst =
        modules.map Prod.fst := by
      rw [List.map_map]
      apply List.map_congr_left
      intro entry _
      by_cases isRoot : entry.1 = hostRoot <;> simp [isRoot]
    rw [keys]
    constructor
    · exact .inr
    · rintro (rfl | known)
      · exact List.mem_map.2 ⟨entry, member, by simpa using same⟩
      · exact known
  next unknown => simp [or_comm]

/-- Every registration of a run, from none. -/
def registerAll (calls : List (Text × Info)) : Modules :=
  calls.foldl (fun modules call => register modules call.1 call.2) []

theorem mem_registerAll (calls : List (Text × Info)) (root : Text) :
    root ∈ (registerAll calls).map Prod.fst ↔ root ∈ calls.map Prod.fst := by
  induction calls using List.reverseRecOn with
  | nil => simp [registerAll]
  | append_singleton before call ih =>
      have step : registerAll (before ++ [call]) = register (registerAll before) call.1 call.2 := by
        simp [registerAll]
      rw [step, mem_register, ih]
      simp [or_comm]

theorem root_holds {modules : Modules} {hostFile root : Text} (found : rootOf modules hostFile = some root) :
    insideRoot hostFile root = true := by
  rw [rootOf, longest_iff length_grows] at found
  exact found.2.1

/-- A file belongs to the module in which it lies deepest, whatever was registered before and in
whatever order: its root holds the file, and every other root that holds the file holds that root. -/
theorem root_of_iff (calls : List (Text × Info)) (hostFile root : Text) :
    rootOf (registerAll calls) hostFile = some root ↔
      root ∈ calls.map Prod.fst ∧ insideRoot hostFile root = true ∧
        ∀ other ∈ calls.map Prod.fst, insideRoot hostFile other = true → insideRoot root other = true := by
  rw [rootOf, longest_iff length_grows, Deepest]
  simp only [mem_registerAll, insideRoot]

end Roots

/-! Paths there and back. -/
section RoundTrips

/-- The host paths that are the module's own. -/
def Own (root : Text) (m : Info) (h : Text) : Prop :=
  insideRoot h m.data = true ∨ insideRoot h m.tmp = true ∨ insideRoot h root = true

def Virtual (v : Text) : Prop := insideRoot v vApp = true ∨ insideRoot v vData = true ∨ insideRoot v vTmp = true

instance (root : Text) (m : Info) (h : Text) : Decidable (Own root m h) := inferInstanceAs (Decidable (_ ∨ _ ∨ _))
instance (v : Text) : Decidable (Virtual v) := inferInstanceAs (Decidable (_ ∨ _ ∨ _))

variable {root : Text} {m : Info}

/-- No text lies in two of the virtual roots. -/
theorem apart {v first second : Text} (inFirst : insideRoot v first = true) (inSecond : insideRoot v second = true)
    (firstOne : first = vApp ∨ first = vData ∨ first = vTmp) (secondOne : second = vApp ∨ second = vData ∨ second = vTmp) :
    first = second := by
  have nested := inside_total inFirst inSecond
  rcases firstOne with rfl | rfl | rfl <;> rcases secondOne with rfl | rfl | rfl <;>
    first
      | rfl
      | exact absurd nested (by decide)

theorem absolute_inside {v top : Text} (absolute : isAbsolute top = true) (within : insideRoot v top = true) :
    isAbsolute v = true := by
  obtain ⟨rest, _, rfl⟩ := (inside_iff _ _).1 within
  cases top with
  | nil => simp [isAbsolute] at absolute
  | cons c more => simpa [isAbsolute] using absolute

theorem to_host_app {v : Text} (within : insideRoot v vApp = true) : toHost root m v = rebase vApp root v := by
  simp [toHost, absolute_inside (by decide : isAbsolute vApp = true) within, within]

theorem to_host_data {v : Text} (within : insideRoot v vData = true) : toHost root m v = rebase vData m.data v := by
  have notApp : insideRoot v vApp = false := by
    rw [Bool.eq_false_iff]
    exact fun inApp => absurd (apart inApp within (.inl rfl) (.inr (.inl rfl))) (by decide)
  simp [toHost, absolute_inside (by decide : isAbsolute vData = true) within, notApp, within]

theorem to_host_tmp {v : Text} (within : insideRoot v vTmp = true) : toHost root m v = rebase vTmp m.tmp v := by
  have notApp : insideRoot v vApp = false := by
    rw [Bool.eq_false_iff]
    exact fun inApp => absurd (apart inApp within (.inl rfl) (.inr (.inr rfl))) (by decide)
  have notData : insideRoot v vData = false := by
    rw [Bool.eq_false_iff]
    exact fun inData => absurd (apart inData within (.inr (.inl rfl)) (.inr (.inr rfl))) (by decide)
  simp [toHost, absolute_inside (by decide : isAbsolute vTmp = true) within, notApp, notData, within]

theorem to_host_other {v : Text} (absolute : isAbsolute v = true) (notVirtual : ¬ Virtual v) : toHost root m v = v := by
  simp only [Virtual, not_or, Bool.not_eq_true] at notVirtual
  simp [toHost, absolute, notVirtual.1, notVirtual.2.1, notVirtual.2.2]

theorem to_virtual_other {h : Text} (notOwn : ¬ Own root m h) : toVirtual root m h = h := by
  simp only [Own, not_or, Bool.not_eq_true] at notOwn
  simp [toVirtual, notOwn.1, notOwn.2.1, notOwn.2.2]

theorem to_virtual_data {h : Text} (inData : insideRoot h m.data = true) : toVirtual root m h = rebase m.data vData h := by
  simp [toVirtual, inData]

theorem to_virtual_tmp {h : Text} (notData : insideRoot h m.data = false) (inTmp : insideRoot h m.tmp = true) :
    toVirtual root m h = rebase m.tmp vTmp h := by
  simp [toVirtual, notData, inTmp]

theorem to_virtual_root {h : Text} (notData : insideRoot h m.data = false) (notTmp : insideRoot h m.tmp = false)
    (inRoot : insideRoot h root = true) : toVirtual root m h = rebase root vApp h := by
  simp [toVirtual, notData, notTmp, inRoot]

/-- The directory of the module's own that a path is shown under. -/
theorem own_cases {h : Text} (own : Own root m h) :
    insideRoot h m.data = true ∨
      (insideRoot h m.data = false ∧ insideRoot h m.tmp = true) ∨
      (insideRoot h m.data = false ∧ insideRoot h m.tmp = false ∧ insideRoot h root = true) := by
  cases inData : insideRoot h m.data with
  | true => exact .inl rfl
  | false =>
      cases inTmp : insideRoot h m.tmp with
      | true => exact .inr (.inl ⟨rfl, rfl⟩)
      | false => exact .inr (.inr ⟨rfl, rfl, by simpa [Own, inData, inTmp] using own⟩)

theorem to_virtual_own {h : Text} (own : Own root m h) : Virtual (toVirtual root m h) := by
  rcases own_cases own with inData | ⟨notData, inTmp⟩ | ⟨notData, notTmp, inRoot⟩
  · rw [to_virtual_data inData]
    exact .inr (.inl (inside_rebase vData inData))
  · rw [to_virtual_tmp notData inTmp]
    exact .inr (.inr (inside_rebase vTmp inTmp))
  · rw [to_virtual_root notData notTmp inRoot]
    exact .inl (inside_rebase vApp inRoot)

/-- A path of the module's own comes back as it was. -/
theorem own_back {h : Text} (own : Own root m h) : toHost root m (toVirtual root m h) = h := by
  rcases own_cases own with inData | ⟨notData, inTmp⟩ | ⟨notData, notTmp, inRoot⟩
  · rw [to_virtual_data inData, to_host_data (inside_rebase vData inData)]
    exact rebase_back vData inData
  · rw [to_virtual_tmp notData inTmp, to_host_tmp (inside_rebase vTmp inTmp)]
    exact rebase_back vTmp inTmp
  · rw [to_virtual_root notData notTmp inRoot, to_host_app (inside_rebase vApp inRoot)]
    exact rebase_back vApp inRoot

/-- A host path that is not the module's own, but that has the name of one of the module's, is not
reached by its name. -/
theorem hidden_not_back {h : Text} (notOwn : ¬ Own root m h) (named : Virtual h) : toHost root m h ≠ h := by
  simp only [Own, not_or] at notOwn
  rcases named with inApp | inData | inTmp
  · rw [to_host_app inApp, Ne, rebase_eq_self inApp]
    rintro rfl
    exact notOwn.2.2 inApp
  · rw [to_host_data inData, Ne, rebase_eq_self inData]
    intro same
    exact notOwn.1 (same ▸ inData)
  · rw [to_host_tmp inTmp, Ne, rebase_eq_self inTmp]
    intro same
    exact notOwn.2.1 (same ▸ inTmp)

/-- What the facade shows of a host path leads back to it exactly when the path is the module's own,
or has no name that the module's files are shown under. -/
theorem shown_path_leads_back_iff (root : Text) (m : Info) (h : Text) (absolute : isAbsolute h = true) :
    toHost root m (toVirtual root m h) = h ↔ Own root m h ∨ ¬ Virtual h := by
  by_cases own : Own root m h
  · simp [own, own_back own]
  · rw [to_virtual_other own]
    by_cases named : Virtual h
    · simp [own, named, hidden_not_back own named]
    · simp [own, named, to_host_other absolute named]

theorem shown_path_leads_back_for_data :
    toHost "/srv/shop".toList ⟨"/var/shop/data".toList, "/var/shop/tmp".toList⟩
        (toVirtual "/srv/shop".toList ⟨"/var/shop/data".toList, "/var/shop/tmp".toList⟩ "/var/shop/data/a".toList) =
      "/var/shop/data/a".toList :=
  (shown_path_leads_back_iff "/srv/shop".toList ⟨"/var/shop/data".toList, "/var/shop/tmp".toList⟩
    "/var/shop/data/a".toList (by decide)).2 (by simp only [Own, Virtual]; decide)

/-- What is shown under one virtual root is not shown under another. -/
theorem shown_elsewhere {v shown first second : Text} (inFirst : insideRoot v first = true) (ne : first ≠ second)
    (firstOne : first = vApp ∨ first = vData ∨ first = vTmp) (secondOne : second = vApp ∨ second = vData ∨ second = vTmp)
    (inSecond : insideRoot shown second = true) : shown ≠ v := by
  rintro rfl
  exact ne (apart inFirst inSecond firstOne secondOne)

theorem app_shown_again {v : Text} (inApp : insideRoot v vApp = true) :
    toVirtual root m (toHost root m v) = v ↔
      insideRoot (toHost root m v) m.data = false ∧ insideRoot (toHost root m v) m.tmp = false := by
  have host : insideRoot (toHost root m v) root = true := by
    rw [to_host_app inApp]
    exact inside_rebase root inApp
  have own : Own root m (toHost root m v) := .inr (.inr host)
  rcases own_cases own with inData | ⟨notData, inTmp⟩ | ⟨notData, notTmp, _⟩
  · have shown : insideRoot (toVirtual root m (toHost root m v)) vData = true := by
      rw [to_virtual_data inData]
      exact inside_rebase vData inData
    simp [inData, shown_elsewhere inApp (by decide) (.inl rfl) (.inr (.inl rfl)) shown]
  · have shown : insideRoot (toVirtual root m (toHost root m v)) vTmp = true := by
      rw [to_virtual_tmp notData inTmp]
      exact inside_rebase vTmp inTmp
    simp [inTmp, shown_elsewhere inApp (by decide) (.inl rfl) (.inr (.inr rfl)) shown]
  · have same : toVirtual root m (toHost root m v) = v := by
      rw [to_virtual_root notData notTmp host, to_host_app inApp]
      exact rebase_back root inApp
    simp [same, notData, notTmp]

theorem tmp_shown_again {v : Text} (inTmp : insideRoot v vTmp = true) :
    toVirtual root m (toHost root m v) = v ↔ insideRoot (toHost root m v) m.data = false := by
  have host : insideRoot (toHost root m v) m.tmp = true := by
    rw [to_host_tmp inTmp]
    exact inside_rebase m.tmp inTmp
  cases inData : insideRoot (toHost root m v) m.data with
  | true =>
      have shown : insideRoot (toVirtual root m (toHost root m v)) vData = true := by
        rw [to_virtual_data inData]
        exact inside_rebase vData inData
      simp [shown_elsewhere inTmp (by decide) (.inr (.inr rfl)) (.inr (.inl rfl)) shown]
  | false =>
      have same : toVirtual root m (toHost root m v) = v := by
        rw [to_virtual_tmp inData host, to_host_tmp inTmp]
        exact rebase_back m.tmp inTmp
      simp [same]

theorem data_shown_again {v : Text} (inData : insideRoot v vData = true) : toVirtual root m (toHost root m v) = v := by
  have host : insideRoot (toHost root m v) m.data = true := by
    rw [to_host_data inData]
    exact inside_rebase m.data inData
  rw [to_virtual_data host, to_host_data inData]
  exact rebase_back m.data inData

theorem other_shown_again {v : Text} (absolute : isAbsolute v = true) (plain : ¬ Virtual v) :
    toVirtual root m (toHost root m v) = v ↔ ¬ Own root m v := by
  rw [to_host_other absolute plain]
  by_cases own : Own root m v
  · simp only [own, not_true, iff_false]
    exact fun same => plain (same ▸ to_virtual_own own)
  · simp [own, to_virtual_other own]

/-- A name is shown again for the host path it stands for exactly when that path is shown under no
other name: the data directory, and then the one for temporary files, go before the module's root. -/
theorem name_shown_again_iff (root : Text) (m : Info) (v : Text) (absolute : isAbsolute v = true) :
    toVirtual root m (toHost root m v) = v ↔
      (insideRoot v vApp = true →
        insideRoot (toHost root m v) m.data = false ∧ insideRoot (toHost root m v) m.tmp = false) ∧
      (insideRoot v vTmp = true → insideRoot (toHost root m v) m.data = false) ∧
      (¬ Virtual v → ¬ Own root m v) := by
  cases inApp : insideRoot v vApp with
  | true =>
      have notTmp : insideRoot v vTmp = false := by
        rw [Bool.eq_false_iff]
        exact fun inTmp => absurd (apart inApp inTmp (.inl rfl) (.inr (.inr rfl))) (by decide)
      rw [app_shown_again inApp]
      simp [notTmp, Virtual, inApp]
  | false =>
      cases inTmp : insideRoot v vTmp with
      | true =>
          rw [tmp_shown_again inTmp]
          simp [Virtual, inTmp]
      | false =>
          by_cases inData : insideRoot v vData = true
          · simp [data_shown_again inData, Virtual, inData]
          · have plain : ¬ Virtual v := by simp [Virtual, inApp, inTmp, inData]
            rw [other_shown_again absolute plain]
            simp [plain]

theorem name_shown_again_for_app :
    toVirtual "/srv/shop".toList ⟨"/var/shop/data".toList, "/var/shop/tmp".toList⟩
        (toHost "/srv/shop".toList ⟨"/var/shop/data".toList, "/var/shop/tmp".toList⟩ "/app/a.js".toList) =
      "/app/a.js".toList :=
  (name_shown_again_iff "/srv/shop".toList ⟨"/var/shop/data".toList, "/var/shop/tmp".toList⟩ "/app/a.js".toList
    (by decide)).2 (by simp only [Own, Virtual]; decide)

end RoundTrips

/-! Calls through the facade. -/
section Calls

variable {Value : Type} {root : Text} {m : Info}

theorem virtual_absolute {v : Text} (named : Virtual v) : isAbsolute v = true := by
  rcases named with inApp | inData | inTmp
  · exact absolute_inside (by decide) inApp
  · exact absolute_inside (by decide) inData
  · exact absolute_inside (by decide) inTmp

theorem translate_first {v : Text} (absolute : isAbsolute v = true) (key : String) (rest : List (Arg Value)) :
    ∃ others, translateArgs root m key (.string v :: rest) = .string (toHost root m v) :: others := by
  simp only [translateArgs]
  split
  · cases rest with
    | nil => exact ⟨[], by simp [translateTarget, absolute]⟩
    | cons path more => exact ⟨translateArg root m path :: more, by simp [translateTarget, absolute]⟩
  · split <;> exact ⟨_, rfl⟩

/-- The path that a call has answered with is shown to the module under a virtual root, and when the
module goes on with it, the host's function is called with the path that was answered. -/
theorem answered_path_goes_on {key : String} (isPath : key ∈ resultPath) {fn : List (Arg Value) → Outcome Value}
    {args : List (Arg Value)} {h : Text} (answered : fn (translateArgs root m key args) = .ok (.string h))
    (own : Own root m h) :
    ∃ v, wrapFn root m key fn args = .ok (.string v) ∧ Virtual v ∧
      ∀ (next : String) (nextFn : List (Arg Value) → Outcome Value) (rest : List (Arg Value)), ∃ others,
        wrapFn root m next nextFn (.string v :: rest) = translateOutcome root m next (nextFn (.string h :: others)) := by
  have named := to_virtual_own own
  refine ⟨toVirtual root m h, by simp [wrapFn, answered, translateOutcome, translateResult, isPath], named, ?_⟩
  intro next nextFn rest
  obtain ⟨others, first⟩ := @translate_first Value root m _ (virtual_absolute named) next rest
  rw [own_back own] at first
  exact ⟨others, by rw [wrapFn, first]⟩

theorem made_directory_goes_on :
    ∃ v, wrapFn "/srv/shop".toList ⟨"/var/data".toList, "/var/tmp".toList⟩ "mkdtempSync"
        (fun _ => (.ok (.string "/var/tmp/a1".toList) : Outcome Unit)) [.string "/tmp/a".toList] = .ok (.string v) ∧
      Virtual v ∧
      ∀ (next : String) (nextFn : List (Arg Unit) → Outcome Unit) (rest : List (Arg Unit)), ∃ others,
        wrapFn "/srv/shop".toList ⟨"/var/data".toList, "/var/tmp".toList⟩ next nextFn (.string v :: rest) =
          translateOutcome "/srv/shop".toList ⟨"/var/data".toList, "/var/tmp".toList⟩ next
            (nextFn (.string "/var/tmp/a1".toList :: others)) :=
  answered_path_goes_on (by decide) rfl (by decide)

/-! The file beside the one that calls. -/

/-- The last name of a text, from its end. -/
theorem last_part {front last : Text} (someName : last ≠ []) (free : '/' ∉ last) :
    (front ++ '/' :: last).reverse.dropWhile (· == '/') = last.reverse ++ '/' :: front.reverse ∧
      ∀ c ∈ last.reverse, (c != '/') = true := by
  have backwards : (front ++ '/' :: last).reverse = last.reverse ++ '/' :: front.reverse := by simp
  have noSlash : ∀ c ∈ last.reverse, (c != '/') = true := fun c member => by
    simpa using fun same : c = '/' => free (same ▸ List.mem_reverse.1 member)
  refine ⟨?_, noSlash⟩
  rw [backwards]
  cases shape : last.reverse with
  | nil => exact absurd (List.reverse_eq_nil_iff.1 shape) someName
  | cons c more =>
      have other := noSlash c (by simp [shape])
      rw [List.cons_append, List.dropWhile_cons_of_neg]
      simpa using other

theorem last_name {front last : Text} (someName : last ≠ []) (free : '/' ∉ last) :
    ((front ++ '/' :: last).reverse.dropWhile (· == '/')).takeWhile (· != '/') = last.reverse := by
  obtain ⟨kept, noSlash⟩ := @last_part front last someName free
  rw [kept, List.takeWhile_append_of_pos noSlash, List.takeWhile_cons_of_neg (by simp), List.append_nil]

/-- Where `path.posix.dirname` stops: at the last slash, if a name is behind it. -/
theorem dirname_stop {front last : Text} (someName : last ≠ []) (free : '/' ∉ last) :
    ((front ++ '/' :: last).reverse.dropWhile (· == '/')).dropWhile (· != '/') = '/' :: front.reverse := by
  obtain ⟨kept, noSlash⟩ := @last_part front last someName free
  rw [kept, List.dropWhile_append_of_pos noSlash, List.dropWhile_cons_of_neg (by simp)]

/-- `path.posix.dirname` of a file that is in a directory with a name. -/
theorem dirname_append {front last : Text} (someName : last ≠ []) (free : '/' ∉ last) (long : 2 ≤ front.length) :
    IdentityPrefix.dirname (front ++ '/' :: last) = front := by
  have counted : ('/' :: front.reverse).length = front.length + 1 := by simp
  simp only [IdentityPrefix.dirname, dirname_stop someName free, counted]
  rw [if_neg (by omega), if_neg (by omega)]
  simp

/-- `path.posix.dirname` of a file in the host's root. -/
theorem dirname_top {last : Text} (someName : last ≠ []) (free : '/' ∉ last) : IdentityPrefix.dirname ('/' :: last) = ['/'] := by
  have stop := @dirname_stop [] last someName free
  simp only [List.nil_append, List.reverse_nil] at stop
  simp only [IdentityPrefix.dirname, stop]
  simp

/-- The directory of a file in the module, under the module's root. -/
theorem directory_inside {file dir last : Text} (within : insideRoot file root = true) (isFile : file ≠ root)
    (placed : file = dir ++ '/' :: last) (free : '/' ∉ last) : ∃ rest, Tail '/' rest ∧ dir = root ++ rest := by
  obtain ⟨rest, tail, whole⟩ := (inside_iff _ _).1 within
  rcases tail with rfl | ⟨more, rfl⟩
  · exact absurd (whole.trans (List.append_nil _)) isFile
  rcases List.append_eq_append_iff.1 (placed.symm.trans whole) with ⟨between, rootIs, lastIs⟩ | ⟨between, dirIs, moreIs⟩
  · cases between with
    | nil => exact ⟨[], .inl rfl, by simp [rootIs]⟩
    | cons c front =>
        obtain ⟨_, behind⟩ := List.cons.inj lastIs
        exact absurd (by simp [behind] : '/' ∈ last) free
  · have whole : Tail '/' (between ++ '/' :: last) := .inr ⟨more, by rw [← moreIs]⟩
    exact ⟨between, tail_front whole, dirIs⟩

/-- The names between a root and the last name of a file are the same under another root. -/
theorem parts_between {root rest last : Text} {names : List String} (plain : ∀ part ∈ names, PathTexts.Plain part)
    (tail : Tail '/' rest) (someName : last ≠ []) (free : '/' ∉ last)
    (isFile : String.ofList (root ++ rest ++ '/' :: last) = PathTexts.absoluteText names) :
    ∃ inner, (∀ part ∈ inner, PathTexts.Plain part) ∧ ∀ front final : Text, '/' ∉ final →
      PathTexts.split (String.ofList (front ++ rest ++ '/' :: final)) =
        PathTexts.split (String.ofList front) ++ inner ++ [String.ofList final] := by
  have slash (front back : Text) : String.ofList (front ++ '/' :: back) = String.ofList front ++ "/" ++ String.ofList back := by
    rw [show front ++ '/' :: back = front ++ ['/'] ++ back by simp, String.ofList_append, String.ofList_append]
  have alone {final : Text} (free : '/' ∉ final) : PathTexts.split (String.ofList final) = [String.ofList final] :=
    PathTexts.split_of_free (by simpa using free)
  rcases tail with rfl | ⟨more, rfl⟩
  · refine ⟨[], by simp, fun front final free => ?_⟩
    rw [List.append_nil, slash, PathTexts.split_slash, alone free, List.append_nil]
  · have parts (front final : Text) (free : '/' ∉ final) :
        PathTexts.split (String.ofList (front ++ '/' :: more ++ '/' :: final)) =
          PathTexts.split (String.ofList front) ++ PathTexts.split (String.ofList more) ++ [String.ofList final] := by
      rw [slash, slash, PathTexts.split_slash, PathTexts.split_slash, alone free]
    refine ⟨PathTexts.split (String.ofList more), fun part member => plain part ?_, parts⟩
    have some : names ≠ [] := by
      rintro rfl
      have chars := congrArg String.toList isFile
      simp only [String.toList_ofList, List.append_assoc, List.cons_append] at chars
      have counted := congrArg List.length chars
      have long := List.length_pos_iff.2 someName
      simp [PathTexts.absoluteText] at counted
      omega
    have whole := parts root last free
    rw [isFile, PathTexts.split_absoluteText some plain] at whole
    cases front : PathTexts.split (String.ofList root) with
    | nil =>
        have pieces := List.splitOn_ne_nil '/' root
        simp [PathTexts.split] at front
    | cons first others =>
        rw [front, List.cons_append, List.cons_append] at whole
        rw [(List.cons.inj whole).2]
        simp [member]

/-- `loadFile` of a name beside `__dirname`, called by a file of a module: of the file beside that file, for
whatever few frames of countinghouse's own are between, and whichever modules are registered. -/
theorem load_beside_caller (calls : List (Text × Info)) (cwd : List String) (outside more : List (Option Text))
    (file dir last name root : Text) (names : List String) (m : Info) (few : outside.length < stackTraceLimit)
    (ours : ∀ frame ∈ outside, frame.bind (rootOf (registerAll calls)) = none)
    (caller : rootOf (registerAll calls) file = some root) (registered : (registerAll calls).lookup root = some m)
    (isFile : file ≠ root) (notData : insideRoot file m.data = false) (notTmp : insideRoot file m.tmp = false)
    (normal : String.ofList file = PathTexts.absoluteText names ∧ ∀ part ∈ names, PathTexts.Plain part)
    (placed : file = dir ++ '/' :: last) (someName : last ≠ []) (free : '/' ∉ last)
    (named : PathTexts.Plain (String.ofList name)) :
    loadFile cwd (registerAll calls) (outside ++ some file :: more)
      (IdentityPrefix.dirname (toVirtual root m file) ++ '/' :: name) = dir ++ '/' :: name := by
  have within := root_holds caller
  obtain ⟨rest, tail, dirIs⟩ := directory_inside within isFile placed free
  have shown : toVirtual root m file = (vApp ++ rest) ++ '/' :: last := by
    rw [to_virtual_root notData notTmp within, placed, dirIs, List.append_assoc, rebase_append, List.append_assoc]
  have long : 2 ≤ (vApp ++ rest).length := by
    rw [List.length_append]
    exact Nat.le_add_right_of_le (by decide)
  have seen : (outside ++ some file :: more).take stackTraceLimit =
      outside ++ some file :: more.take (stackTraceLimit - outside.length - 1) := by
    rw [List.take_append, List.take_of_length_le few.le, List.take_cons (by omega)]
  have found : ((outside ++ some file :: more).take stackTraceLimit).findSome?
      (fun file => file.bind (rootOf (registerAll calls))) = some root := by
    rw [seen, List.findSome?_append, List.findSome?_eq_none_iff.2 ours]
    simp [caller]
  have virtual : insideRoot (vApp ++ (rest ++ '/' :: name)) vApp = true :=
    inside_append (tail_append tail (.inr ⟨name, rfl⟩))
  obtain ⟨inner, innerPlain, parts⟩ := parts_between normal.2 tail someName free (by rw [← dirIs, ← placed, normal.1])
  -- the name is in normal form, so it is resolved to itself
  have resolved : (PathTexts.resolve cwd (String.ofList (vApp ++ rest ++ '/' :: name))).toList =
      vApp ++ rest ++ '/' :: name := by
    have pieces := parts vApp name (by simpa using named.2)
    have front : PathTexts.split (String.ofList vApp) = ["", "app"] := by decide
    rw [front] at pieces
    have plain : ∀ part ∈ "app" :: (inner ++ [String.ofList name]), PathTexts.Plain part := by
      intro part member
      rcases List.mem_cons.1 member with rfl | later
      · decide
      · rcases List.mem_append.1 later with between | final
        · exact innerPlain part between
        · exact List.mem_singleton.1 final ▸ named
    have text := PathTexts.absoluteText_of_split (by simp) plain pieces
    rw [← text, PathTexts.resolve_absoluteText cwd (by simp) plain, text, String.toList_ofList]
  rw [shown, dirname_append someName free long]
  simp only [loadFile, resolved]
  rw [List.append_assoc, if_pos virtual]
  simp only [hostFromCaller, found, registered]
  rw [to_host_app virtual, rebase_append, dirIs, List.append_assoc]

def shop : List (Text × Info) := [("/srv/shop".toList, ⟨"/var/data".toList, "/var/tmp".toList⟩)]

theorem load_beside_index :
    loadFile ["opt", "ch"] (registerAll shop) ([some "/opt/ch/lib/service.js".toList] ++
        some "/srv/shop/index.js".toList :: [])
      (IdentityPrefix.dirname (toVirtual "/srv/shop".toList ⟨"/var/data".toList, "/var/tmp".toList⟩
        "/srv/shop/index.js".toList) ++ '/' :: "device.js".toList) = "/srv/shop".toList ++ '/' :: "device.js".toList :=
  load_beside_caller shop ["opt", "ch"] [some "/opt/ch/lib/service.js".toList] [] "/srv/shop/index.js".toList
    "/srv/shop".toList "index.js".toList "device.js".toList "/srv/shop".toList ["srv", "shop", "index.js"]
    ⟨"/var/data".toList, "/var/tmp".toList⟩ (by decide) (by decide) (by decide) (by decide) (by decide) (by decide)
    (by decide) ⟨by decide, by decide⟩ (by decide) (by decide) (by decide) (by decide)

end Calls

end Countinghouse.ThreadFacade
