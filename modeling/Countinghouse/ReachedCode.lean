import Mathlib
import Countinghouse.LoaderHooks

/-!
What a module's code can come to load under enforce: requests lead from file to file, and none leads out
of the package or to a built-in that is not in the list.
-/

namespace Countinghouse.ReachedCode

open AuditedRuns AuditedRuns.Run LoaderHooks
open NamespacePaths (joined)
open PathTexts (Plain)
open ThreadFacade (Text insideRoot isAbsolute)
open TextRoots hiding inside

/-! What module code reaches. -/
section Reach

variable {site : Site} {node : Node}

theorem vroot_joined : VROOT = joined ["app"] := by simp [VROOT]

theorem virtual_in_tree {p : Text} (named : Named p) (isThere : isVirtual p = true) : InTree ["app"] p := by
  rw [isVirtual, vroot_joined] at isThere
  exact in_tree_of_inside (by decide) named isThere

theorem host_in_tree {p : Text} (named : Named p) (isThere : isModuleHost site p = true) : InTree site.rootNames p :=
  in_tree_of_inside site.plain named isThere

theorem to_host_in_tree {p : Text} (tree : InTree ["app"] p) : InTree site.rootNames (toHost site p) := by
  rw [toHost, vroot_joined]
  exact tree.rebase

theorem to_virtual_in_tree {p : Text} (tree : InTree site.rootNames p) : InTree ["app"] (toVirtual site p) := by
  rw [toVirtual, vroot_joined]
  exact tree.rebase

theorem host_named {p : Text} (tree : InTree site.rootNames p) : Named p := tree.named site.rooted site.plain

theorem virtual_extname {p : Text} (tree : InTree site.rootNames p) (other : extname p ≠ NODE) :
    extname (toVirtual site p) ≠ NODE := by
  obtain ⟨rest, plain, rfl⟩ := tree
  have shape : toVirtual site (joined (site.rootNames ++ rest)) = VROOT ++ joined rest := by
    rw [toVirtual, Site.moduleRoot, NamespacePaths.joined_append, rebase_append]
  rw [shape]
  rcases List.eq_nil_or_concat rest with rfl | ⟨front, last, rfl⟩
  · decide
  · have named := plain last (by simp)
    have someName : last.toList ≠ [] := List.length_pos_iff.1 (named_length named)
    have behind : ∀ root : Text, root ++ joined (front.concat last) = (root ++ joined front) ++ '/' :: last.toList := by
      intro root
      simp
    rw [NamespacePaths.joined_append, behind, extname_append someName named.2] at other
    rwa [behind, extname_append someName named.2]

/-- A file that the module sees under `/app`, or that is in its package. -/
def Own (site : Site) (p : Text) : Prop := InTree ["app"] p ∨ InTree site.rootNames p

/-- The file on the host. -/
theorem Own.host {p : Text} (own : Own site p) : InTree site.rootNames (hostOf site p) ∧ inside site p = true := by
  have within : InTree site.rootNames (hostOf site p) := by
    unfold hostOf
    split
    · next isThere =>
      rcases own with app | host
      · exact to_host_in_tree app
      · exact to_host_in_tree (virtual_in_tree (host_named host) isThere)
    · next elsewhere =>
      rcases own with app | host
      · exact absurd (show isVirtual p = true by simpa [isVirtual, vroot_joined] using app.inside) elsewhere
      · exact host
  exact ⟨within, within.inside⟩

theorem own_parent {p : Text} (own : Own site p) :
    parentOf site (some (.file p)) = ⟨some (hostOf site p), true⟩ ∧ InTree site.rootNames (hostOf site p) := by
  have within := own.host
  refine ⟨?_, within.1⟩
  have isThere := within.2
  unfold inside hostOf at isThere
  by_cases virtual : isVirtual p = true
  · simp [parentOf, hostOf, virtual]
  · rw [if_neg virtual] at isThere
    simp [parentOf, hostOf, virtual, isThere]

/-- The reduced `module`, or a built-in of the list that is not `module`. -/
def AllowedBuiltin (t : Text) : Prop :=
  t = REDUCED ∨ ∃ b, builtinAllowed b = true ∧ b ≠ ['m', 'o', 'd', 'u', 'l', 'e'] ∧ t = nodePrefix ++ b

/-- What module code may be answered with; a native addon has the name it has on the host. -/
def Allowed (site : Site) : Url → Prop
  | .file p => (InTree ["app"] p ∧ extname p ≠ NODE) ∨ InTree site.rootNames p
  | .other t => AllowedBuiltin t

/-- A URL that module code may come from. -/
def HoldsCode : Url → Prop
  | .file _ => True
  | .other t => nodePrefix.isPrefixOf t = false

variable (strict : site.mode = .enforce)

include strict in
theorem enforce_true : site.enforce = true := by simp [Site.enforce, strict]

include strict in
theorem not_violated {condition : Bool} {r : Note} {e : Failure} {u : Unit}
    (goesOn : (onlyIf condition (violate site.enforce r e)).result = .ok u) : condition = false := by
  cases condition with
  | false => rfl
  | true => simp [onlyIf, violate, enforce_true strict] at goesOn

/-- What the boundary lets module code have. -/
def Passed (site : Site) : Url → Prop
  | .file p => Named p ∧ inside site p = true
  | .other t => AllowedBuiltin t

include strict in
theorem builtin_allowed {s : Specifier} {context : Context} {answer : Resolved} (isOne : isBuiltin node s = true)
    (code : fromModule site context.parentURL = true) (ok : (lockdownBuiltin site node s context).result = .ok answer) :
    ∃ t, answer.url = .other t ∧ AllowedBuiltin t := by
  cases s with
  | url spelled path absolute => simp [isBuiltin] at isOne
  | text t =>
      simp only [lockdownBuiltin, bind_result] at ok
      obtain ⟨_, allowed, _, _, last⟩ := ok
      have permitted : builtinAllowed (bare t) = true := by simpa [Specifier.shown] using not_violated strict allowed
      rw [code, enforce_true strict, Bool.true_and, Bool.and_true] at last
      split at last
      · rw [← Except.ok.inj last]
        exact ⟨REDUCED, rfl, .inl rfl⟩
      · next other =>
        cases found : node.resolve (.text t) context with
        | error e => simp [answered, found] at last
        | ok result =>
            rw [found] at last
            rw [← Except.ok.inj last]
            exact ⟨_, node.own isOne found, .inr ⟨bare t, permitted, by simpa [isModuleBuiltin, Specifier.shown] using other, rfl⟩⟩

include strict in
theorem file_passed {s : Specifier} {context : Context} {answer : Resolved}
    (code : fromModule site context.parentURL = true) (ok : (lockdownFile site node s context).result = .ok answer) :
    node.resolve s context = .ok answer ∧ insideUrl site answer.url = true := by
  unfold lockdownFile at ok
  cases found : node.resolve s context with
  | error e =>
      rw [found] at ok
      simp only [bind_result] at ok
      obtain ⟨_, _, last⟩ := ok
      simp at last
  | ok result =>
      rw [found] at ok
      simp only [bind_result] at ok
      obtain ⟨_, checked, last⟩ := ok
      rw [← Except.ok.inj last]
      exact ⟨rfl, by simpa [code] using not_violated strict checked⟩

include strict in
theorem lockdown_passed {s : Specifier} {context : Context} {answer : Resolved}
    (code : fromModule site context.parentURL = true) (ok : (lockdown site node s context).result = .ok answer) :
    Passed site answer.url := by
  unfold lockdown at ok
  split at ok
  · next isOne =>
    obtain ⟨t, url, allowed⟩ := builtin_allowed strict isOne code ok
    rw [url]
    exact allowed
  · obtain ⟨found, within⟩ := file_passed strict code ok
    cases url : answer.url with
    | file p =>
        rw [url] at within
        exact ⟨node.normal found url, within⟩
    | other t =>
        rw [url] at within
        cases within

theorem host_slash {p : Text} (within : isModuleHost site p = true) : isAbsolute p = true := by
  obtain ⟨rest, _, whole⟩ := (inside_iff _ _).1 within
  cases names : site.rootNames with
  | nil => exact absurd names site.rooted
  | cons name more => simp [whole, Site.moduleRoot, names, isAbsolute]

theorem builtin_not_absolute {t : Text} (allowed : AllowedBuiltin t) : isAbsolute t = false := by
  rcases allowed with rfl | ⟨b, _, _, rfl⟩
  · decide
  · simp [nodePrefix, isAbsolute]

theorem from_own {p : Text} (own : Own site p) : fromModule site (some (.file p)) = true := own.host.2

theorem from_host {p : Text} (tree : InTree site.rootNames p) : fromModule site (some (fileUrl p)) = true := by
  have own : Own site p := .inr tree
  rw [fileUrl, (host_named tree).resolved_eq]
  exact from_own own

/-- What the search of a module's request comes to. -/
def FoundFor (site : Site) : Found → Prop
  | .away answer => Allowed site answer.url
  | .host p _ => isModuleHost site p = true → Named p

include strict in
theorem next_passed {s : Specifier} {context : Context} {answer : Resolved}
    (code : fromModule site context.parentURL = true) (ok : (nextResolve site node s context).result = .ok answer) :
    Passed site answer.url := by
  rw [nextResolve, if_neg (by simp [strict])] at ok
  exact lockdown_passed strict code ok

include strict in
theorem next_builtin {s : Specifier} {context : Context} {answer : Resolved} (isOne : isBuiltin node s = true)
    (code : fromModule site context.parentURL = true) (ok : (nextResolve site node s context).result = .ok answer) :
    Allowed site answer.url := by
  rw [nextResolve, if_neg (by simp [strict]), lockdown, if_pos isOne] at ok
  obtain ⟨t, url, allowed⟩ := builtin_allowed strict isOne code ok
  rw [url]
  exact allowed

include strict in
theorem require_found {host t : Text} {context : Context} {found : Found} (own : InTree site.rootNames host)
    (code : fromModule site context.parentURL = true) (ok : (requireFrom site node host t context).result = .ok found) :
    FoundFor site found := by
  simp only [requireFrom, bind_result] at ok
  obtain ⟨answer, asked, last⟩ := ok
  have passed : Passed site answer.url := by
    apply next_passed strict _ asked
    exact from_host own
  cases url : answer.url with
  | file p =>
      rw [url] at passed last
      rw [← Except.ok.inj last, FoundFor]
      exact fun _ => passed.1
  | other id =>
      rw [url] at passed last
      simp only at last
      split at last
      · next isOne =>
        obtain ⟨builtin, again, ends⟩ := bind_result.1 last
        rw [← Except.ok.inj ends]
        exact next_builtin strict (s := .text id) isOne code again
      · rw [← Except.ok.inj last]
        intro within
        have away := builtin_not_absolute passed
        rw [host_slash within] at away
        cases away

include strict in
theorem ask_found {host : Option Text} {t : Text} {context : Context} {found : Found}
    (code : fromModule site ((host.map fileUrl).or context.parentURL) = true)
    (ok : (askNext site node host t context).result = .ok found) : FoundFor site found := by
  simp only [askNext, bind_result] at ok
  obtain ⟨answer, asked, last⟩ := ok
  have passed := next_passed strict code asked
  cases url : answer.url with
  | file p =>
      rw [url] at passed last
      rw [← Except.ok.inj last, FoundFor]
      exact fun _ => passed.1
  | other id =>
      rw [url] at passed last
      rw [← Except.ok.inj last, FoundFor, url]
      exact passed

/-- A URL that module code comes from. -/
def ModuleCode (site : Site) : Url → Prop
  | .file p => Own site p
  | .other t => nodePrefix.isPrefixOf t = false

theorem module_code_from {u : Url} (code : ModuleCode site u) : fromModule site (some u) = true := by
  cases u with
  | file p => exact from_own code
  | other t =>
      have free : nodePrefix.isPrefixOf t = false := code
      simp [fromModule, free]

theorem module_code_parent {u : Url} (code : ModuleCode site u) : (parentOf site (some u)).fromModule = true := by
  cases u with
  | file p => rw [(own_parent code).1]
  | other t => rfl

include strict in
theorem search_found {u : Url} {conditions : List String} {t : Text} {found : Found} (code : ModuleCode site u)
    (ok : (search site node (parentOf site (some u)) t ⟨some u, conditions⟩).result = .ok found) : FoundFor site found := by
  have fromCode := module_code_from code
  cases u with
  | other text =>
      apply ask_found strict _ ok
      simpa using fromCode
  | file p =>
      obtain ⟨parent, within⟩ := own_parent code
      simp only [search, parent, Bool.true_and] at ok
      split at ok
      · exact require_found strict within fromCode ok
      · apply ask_found strict _ ok
        simpa using from_host within

include strict in
theorem bound_host {p shown : Text} {u : Unit} (ok : (bound site p true shown).result = .ok u) :
    isModuleHost site p = true := by
  unfold bound at ok
  split at ok
  · assumption
  · simp [strict, Site.enforce, violate] at ok

theorem answer_own {p : Text} {format : Option Format} {context : Context} {answer : Resolved}
    (own : InTree site.rootNames p) (ok : (answerHost site node p format context).result = .ok answer) :
    Allowed site answer.url := by
  simp only [answerHost, bind_result] at ok
  obtain ⟨cjs, _, last⟩ := ok
  split at last
  · next shown =>
    rw [← Except.ok.inj last]
    have tree := to_virtual_in_tree own
    have other : extname p ≠ NODE := by
      simp only [Bool.and_eq_true, bne_iff_ne] at shown
      exact shown.1.2
    rw [fileUrl, (tree.named (by decide) (by decide)).resolved_eq]
    exact .inl ⟨tree, virtual_extname own other⟩
  · obtain ⟨_, _, ends⟩ := bind_result.1 last
    rw [← Except.ok.inj ends, fileUrl, (host_named own).resolved_eq]
    exact .inr own

include strict in
/-- One request of module code. -/
theorem resolve_allowed {u : Url} {s : Specifier} {conditions : List String} {answer : Resolved} (code : ModuleCode site u)
    (ok : (resolve site node s ⟨some u, conditions⟩).result = .ok answer) : Allowed site answer.url := by
  unfold resolve at ok
  split at ok
  · next isOne => exact next_builtin strict isOne (module_code_from code) ok
  · simp only [bind_result] at ok
    obtain ⟨_, _, found, searched, last⟩ := ok
    have ofFound := search_found strict code searched
    cases found with
    | away other =>
        rw [← Except.ok.inj last]
        exact ofFound
    | host p format =>
        obtain ⟨_, bounded, ends⟩ := bind_result.1 last
        rw [module_code_parent code] at bounded
        have within := bound_host strict bounded
        exact answer_own (host_in_tree (ofFound within) within) ends

/-- The URLs that loads lead to, one from the code of the other. -/
inductive Reached (site : Site) (node : Node) (start : Url) : Url → Prop where
  | start : Reached site node start start
  | load {u : Url} {s : Specifier} {conditions : List String} {answer : Resolved} (before : Reached site node start u)
      (code : HoldsCode u) (ok : (resolve site node s ⟨some u, conditions⟩).result = .ok answer) :
      Reached site node start answer.url

include strict in
theorem reached_allowed {start u : Url} (code : ModuleCode site start) (reached : Reached site node start u) :
    u = start ∨ Allowed site u := by
  induction reached with
  | start => exact .inl rfl
  | load before holds ok ih =>
      refine .inr (resolve_allowed strict ?_ ok)
      rcases ih with rfl | allowed
      · exact code
      · next parent _ _ _ =>
        cases parent with
        | file p => exact allowed.imp And.left id
        | other t => exact holds

end Reach

/-! A module and its files. -/
section Shop

def shopFile : Text := ['/', 's', 'r', 'v', '/', 's', 'h', 'o', 'p', '/', 'u', '.', 'j', 's']

/-- Node on a host where everything that is no built-in leads to one file. -/
def shopNode : Node where
  isBuiltin t := t == ['f', 's']
  resolve s _ :=
    match s with
    | .text t => .ok (if t = ['f', 's'] then ⟨.other (nodePrefix ++ ['f', 's']), none⟩ else ⟨.file shopFile, none⟩)
    | .url _ _ _ => .ok ⟨.file shopFile, none⟩
  href t := ['f', 'i', 'l', 'e', ':', '/', '/'] ++ t
  reachesLib _ := false
  readPackage _ := none
  requireConditions := ["require", "node"]
  path_not_builtin := by
    intro t is
    rw [eq_of_beq is]
    rfl
  own := by
    intro t context answer is ok
    rw [eq_of_beq is] at ok ⊢
    cases Except.ok.inj ok
    rfl
  normal := by
    intro s context answer p ok url
    have file : Named shopFile := ⟨["srv", "shop", "u.js"], by simp, by decide, by decide⟩
    cases s with
    | text t =>
        cases Except.ok.inj ok
        split at url
        · cases url
        · cases url
          exact file
    | url spelled path absolute =>
        cases Except.ok.inj ok
        cases url
        exact file
  schemed := by
    intro s context answer t ok url
    cases s with
    | text text =>
        cases Except.ok.inj ok
        split at url
        · cases url
          rfl
        · cases url
    | url spelled path absolute =>
        cases Except.ok.inj ok
        cases url

def shop : Site := ⟨.enforce, ["srv", "shop"], by simp, by decide, []⟩

def indexFile : Text := ['/', 'a', 'p', 'p', '/', 'i', '.', 'j', 's']

theorem index_code : ModuleCode shop (.file indexFile) := .inl ⟨["i.js"], by decide, by decide⟩

theorem util_required : (resolve shop shopNode (.text ['.', '/', 'u']) ⟨some (.file indexFile), ["require"]⟩).result =
    .ok ⟨.file ['/', 'a', 'p', 'p', '/', 'u', '.', 'j', 's'], none⟩ := rfl

end Shop

end Countinghouse.ReachedCode
