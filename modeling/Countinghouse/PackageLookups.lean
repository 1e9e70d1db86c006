import Mathlib
import Countinghouse.ReachedCode

/-!
Where on the host the loader hooks look for module code, and which file countinghouse loads for a name that a
module gives it.
-/

namespace Countinghouse.PackageLookups

open AuditedRuns AuditedRuns.Run LoaderHooks ReachedCode
open NamespacePaths (joined)
open PathTexts (Plain normalizeString_plain split_absoluteText)
open ThreadFacade (Text insideRoot isAbsolute)
open TextRoots hiding inside

/-! What is read from the host for module code. -/
section Lookups

variable {site : Site} {node : Node}

/-- What a hook opens or reads with the original `fs` is in the module's package. -/
def InPackage (site : Site) : Note → Prop
  | .resolving roots => ∀ r ∈ roots, InTree site.rootNames r
  | .reading p => InTree site.rootNames p
  | .read p => InTree site.rootNames p
  | .report _ _ => True
  | .released => True

theorem answered_in_package (answer : Except Failure Resolved) : Notes (InPackage site) (answered answer) := by
  cases answer with
  | error e => exact notes_fail e
  | ok result => exact notes_pure result

theorem violate_in_package {condition strict : Bool} {rule : Rule} {target : Text} {e : Failure} :
    Notes (InPackage site) (onlyIf condition (violate strict (.report rule target) e)) :=
  notes_only_if fun _ => notes_violate trivial

theorem lockdown_in_package (s : Specifier) (context : Context) : Notes (InPackage site) (lockdown site node s context) := by
  unfold lockdown
  split
  · refine notes_bind violate_in_package fun _ _ => notes_bind (notes_only_if fun _ => notes_note trivial) fun _ _ => ?_
    split
    · exact notes_pure reduced
    · exact answered_in_package _
  · unfold lockdownFile
    split
    · exact notes_bind violate_in_package fun _ _ => notes_fail _
    · exact notes_bind violate_in_package fun _ _ => notes_pure _

theorem next_in_package (s : Specifier) (context : Context) : Notes (InPackage site) (nextResolve site node s context) := by
  unfold nextResolve
  split
  · exact answered_in_package _
  · exact lockdown_in_package s context

theorem search_in_package (parent : Parent) (t : Text) (context : Context) :
    Notes (InPackage site) (search site node parent t context) := by
  have asks : ∀ host, Notes (InPackage site) (askNext site node host t context) := by
    intro host
    refine notes_bind (next_in_package _ _) fun answer _ => ?_
    cases answer.url with
    | file p => exact notes_pure _
    | other id => exact notes_pure _
  unfold search
  split
  · split
    · refine notes_bind (next_in_package _ _) fun answer _ => ?_
      cases answer.url with
      | file p => exact notes_pure _
      | other id =>
          simp only
          split
          · exact notes_bind (next_in_package _ _) fun _ _ => notes_pure _
          · exact notes_pure _
    · exact asks _
  · exact asks none

theorem package_type_in_package (fuel : Nat) {dir : Text}
    (ofTree : insideRoot dir site.moduleRoot = true → InTree site.rootNames dir) :
    Notes (InPackage site) (packageTypeFrom site node fuel dir) := by
  induction fuel generalizing dir with
  | zero => exact notes_pure _
  | succ fuel ih =>
      unfold packageTypeFrom
      split
      · next within =>
        have tree := ofTree within
        have manifest : InPackage site (.read (packageFile dir)) := package_file_in_tree site.rooted site.plain tree
        refine notes_bind (notes_note manifest) fun _ _ => ?_
        cases node.readPackage (packageFile dir) with
        | some json => exact notes_pure _
        | none =>
            simp only
            split
            · exact notes_pure _
            · exact ih (dirname_in_tree site.rooted site.plain tree)
      · exact notes_pure _

theorem format_in_package {p : Text} (tree : InTree site.rootNames p) : Notes (InPackage site) (formatOf site node p) := by
  have typed : Notes (InPackage site) (packageType site node p) :=
    package_type_in_package _ (dirname_in_tree site.rooted site.plain tree)
  unfold formatOf
  simp only
  split
  · exact notes_pure _
  · split
    · exact notes_pure _
    · split
      · exact notes_pure _
      · exact notes_bind typed fun _ _ => notes_pure _

theorem answer_in_package {p : Text} (format : Option Format) (context : Context)
    (named : isModuleHost site p = true → Named p) : Notes (InPackage site) (answerHost site node p format context) := by
  have cjsNotes : Notes (InPackage site) (importedCjs site node p format context) := by
    unfold importedCjs
    split
    · next within =>
      cases format with
      | some format => exact notes_pure _
      | none => exact notes_bind (format_in_package (host_in_tree (named within) within)) fun _ _ => notes_pure _
    · exact notes_pure _
  refine notes_bind cjsNotes fun cjs isCjs => ?_
  split
  · exact notes_pure _
  · refine notes_bind (notes_only_if fun truly => ?_) fun _ _ => notes_pure _
    -- a lasting grant is for a file of the module
    have within : isModuleHost site p = true := by
      by_contra outside
      unfold importedCjs at isCjs
      rw [if_neg outside, truly] at isCjs
      cases Except.ok.inj isCjs
    have tree := host_in_tree (named within) within
    exact notes_bind (notes_note (by simpa [InPackage] using tree)) fun _ _ => notes_note tree

/-- The path of a URL has no dots, and the text of another URL begins with its scheme. -/
def Clear : Url → Prop
  | .file p => Named p
  | .other t => isAbsolute t = false

theorem answered_clear {s : Specifier} {context : Context} {answer : Resolved}
    (ok : (answered (node.resolve s context)).result = .ok answer) : Clear answer.url := by
  cases found : node.resolve s context with
  | error e => simp [answered, found] at ok
  | ok result =>
      rw [found] at ok
      rw [← Except.ok.inj ok]
      cases url : result.url with
      | file p => exact node.normal found url
      | other t => exact node.schemed found url

theorem next_clear {s : Specifier} {context : Context} {answer : Resolved}
    (ok : (nextResolve site node s context).result = .ok answer) : Clear answer.url := by
  unfold nextResolve at ok
  split at ok
  · exact answered_clear ok
  · unfold lockdown at ok
    split at ok
    · simp only [lockdownBuiltin, bind_result] at ok
      obtain ⟨_, _, _, _, last⟩ := ok
      split at last
      · rw [← Except.ok.inj last]
        show isAbsolute REDUCED = false
        decide
      · exact answered_clear last
    · suffices relayed : (answered (node.resolve s context)).result = .ok answer from answered_clear relayed
      unfold lockdownFile at ok
      cases found : node.resolve s context with
      | error e =>
          rw [found] at ok
          obtain ⟨_, _, last⟩ := bind_result.1 ok
          simp at last
      | ok result =>
          rw [found] at ok
          obtain ⟨_, _, last⟩ := bind_result.1 ok
          exact last

/-- In every mode a host file that the search finds is a path without dots, or none of the module's. -/
theorem search_host_named {parent : Parent} {t p : Text} {context : Context} {format : Option Format}
    (ok : (search site node parent t context).result = .ok (.host p format)) : isModuleHost site p = true → Named p := by
  have asks : ∀ host, (askNext site node host t context).result = .ok (.host p format) → Named p := by
    intro host ofAsk
    obtain ⟨answer, asked, last⟩ := bind_result.1 ofAsk
    have clear := next_clear asked
    cases url : answer.url with
    | file q =>
        rw [url] at clear last
        cases Except.ok.inj last
        exact clear
    | other id =>
        rw [url] at last
        cases Except.ok.inj last
  unfold search at ok
  split at ok
  · split at ok
    · obtain ⟨answer, asked, last⟩ := bind_result.1 ok
      have clear := next_clear asked
      cases url : answer.url with
      | file q =>
          rw [url] at clear last
          cases Except.ok.inj last
          exact fun _ => clear
      | other id =>
          rw [url] at clear last
          simp only at last
          split at last
          · obtain ⟨_, _, ends⟩ := bind_result.1 last
            cases Except.ok.inj ends
          · cases Except.ok.inj last
            intro within
            have schemed : isAbsolute p = false := clear
            rw [host_slash within] at schemed
            cases schemed
    · exact fun _ => asks _ ok
  · exact fun _ => asks _ ok

/-- For every request of module code and in every mode, what is looked up and read with the original `fs` is in
the module's package. -/
theorem lookups_in_package {u : Url} (code : ModuleCode site u) (s : Specifier) (conditions : List String) :
    Notes (InPackage site) (resolve site node s ⟨some u, conditions⟩) := by
  unfold resolve
  split
  · exact next_in_package _ _
  · have roots : InPackage site (.resolving (lookupRoots site (parentOf site (some u)).fromModule)) := by
      rw [module_code_parent code]
      intro r mem
      rw [List.mem_singleton.1 mem]
      exact ⟨[], by simp, by simp [Site.moduleRoot]⟩
    refine notes_bind (notes_note roots) fun _ _ => notes_bind (notes_lastly (search_in_package _ _ _) trivial) fun found searched => ?_
    cases found with
    | away answer => exact notes_pure _
    | host p format =>
        have bounds : Notes (InPackage site) (bound site p (parentOf site (some u)).fromModule s.shown) := by
          unfold bound
          split
          · exact notes_pure _
          · split
            · exact notes_pure _
            · split
              · exact notes_pure _
              · exact notes_violate trivial
        exact notes_bind bounds fun _ _ => answer_in_package format _ (search_host_named searched)

theorem lookups_of_index :
    Notes (InPackage shop) (resolve shop shopNode (.text ['.', '/', 'u']) ⟨some (.file indexFile), ["require"]⟩) :=
  lookups_in_package index_code (.text ['.', '/', 'u']) ["require"]

theorem load_in_package {u : Url} (allowed : Allowed site u) : Notes (InPackage site) (load site node u) := by
  cases u with
  | other t => exact notes_pure _
  | file p =>
      simp only [load]
      split
      · next shown =>
        simp only [Bool.and_eq_true] at shown
        have named : Named p := by
          rcases allowed with ⟨app, _⟩ | host
          · exact app.named (by decide) (by decide)
          · exact host_named host
        have tree : InTree site.rootNames (toHost site p) := to_host_in_tree (virtual_in_tree named shown.1)
        exact notes_bind (format_in_package tree) fun _ _ => notes_note tree
      · next hidden =>
        have tree : InTree site.rootNames p := by
          rcases allowed with ⟨app, other⟩ | host
          · have isThere : isVirtual p = true := by simpa [isVirtual, vroot_joined] using app.inside
            exact absurd (by simp [isThere, other]) hidden
          · exact host
        exact notes_lastly (notes_note tree) trivial

/-- Under enforce, whatever module code loads, and the code that it loads, and so on, is a file of the module's
package or a built-in of the list; and loading it reads nothing that is not in the package. -/
theorem module_code_stays (strict : site.mode = .enforce) {start u : Url} (code : ModuleCode site start)
    (reached : Reached site node start u) : u = start ∨ (Allowed site u ∧ Notes (InPackage site) (load site node u)) := by
  rcases reached_allowed strict code reached with same | allowed
  · exact .inl same
  · exact .inr ⟨allowed, load_in_package allowed⟩

theorem module_code_stays_for_index :
    (Url.file ['/', 'a', 'p', 'p', '/', 'u', '.', 'j', 's'] = .file indexFile) ∨
      (Allowed shop (.file ['/', 'a', 'p', 'p', '/', 'u', '.', 'j', 's']) ∧
        Notes (InPackage shop) (load shop shopNode (.file ['/', 'a', 'p', 'p', '/', 'u', '.', 'j', 's']))) :=
  module_code_stays rfl index_code (.load .start (show HoldsCode (.file indexFile) from trivial) util_required)

end Lookups

/-! Files that a module names to countinghouse. -/
section LoadFile

variable {site : Site}

/-- What `CHUtil.loadFile(name)` requires, in a worker. -/
def requested (name : Text) : Text := specifierFor (PathTexts.resolve ["app"] (String.ofList name)).toList

/-- `resolve` gives the text of the place that a name leads to. -/
theorem resolve_place {cwd : List String} (plain : ∀ name ∈ cwd, Plain name) (text : String) :
    PathTexts.resolve cwd text = PathTexts.absoluteText (PathTexts.place cwd text) := by
  have free : ∀ part ∈ PathTexts.split (PathTexts.fromCwd cwd text), '/' ∉ part.toList :=
    fun part mem => PathTexts.free_of_mem_split mem
  have keeps := PathTexts.normalizeString_keeps false [] free (by simp)
  have kept : ∀ part ∈ PathTexts.normalizeString false [] (PathTexts.split (PathTexts.fromCwd cwd text)), Plain part :=
    fun part mem => ⟨(keeps part mem).2.resolve_right (by simp), (keeps part mem).1⟩
  have leads := (PathTexts.place_resolve plain text).1
  rw [PathTexts.resolve, PathTexts.place_absoluteText cwd kept] at leads
  rw [PathTexts.resolve, leads]

theorem under_vroot {rest : List String} (some : rest ≠ []) (plain : ∀ name ∈ rest, Plain name) :
    underVroot (joined rest) = joined ("app" :: rest) := by
  have nonempty : PathTexts.absoluteText rest ≠ "" := by simp [PathTexts.absoluteText]
  have kept : ["/app", PathTexts.absoluteText rest].filter (fun arg => arg != "") = ["/app", PathTexts.absoluteText rest] := by
    simp [nonempty]
  have parts : PathTexts.split ("/app" ++ "/" ++ PathTexts.absoluteText rest) = ["", "app"] ++ "" :: rest := by
    rw [PathTexts.split_slash, split_absoluteText some plain]
    rfl
  have names : PathTexts.normalizeString false [] (["", "app"] ++ "" :: rest) = "app" :: rest := by
    have later := normalizeString_plain false ["app"] plain
    simpa [PathTexts.normalizeString, ModuleTree.segOf] using later
  have unended : ("/app" ++ "/" ++ PathTexts.absoluteText rest).toList.getLast? ≠ .some '/' := by
    have last := absoluteText_unended some plain
    rw [String.toList_append, List.getLast?_append_of_ne_nil]
    · exact last
    · simp [PathTexts.absoluteText]
  have shown : "/".intercalate ("app" :: rest) ≠ "" := fun empty => by
    cases PathTexts.intercalate_eq_empty (fun name mem => by
      rcases List.mem_cons.1 mem with rfl | mem
      · decide
      · exact PathTexts.plain_ne_empty (plain name mem)) empty
  have absolute : PathTexts.isAbsolute ("/app" ++ "/" ++ PathTexts.absoluteText rest) = true := by
    simp [PathTexts.isAbsolute]
  have settled : PathTexts.resolve [] (PathTexts.absoluteText rest) = PathTexts.absoluteText rest := by
    have same := resolved_joined some plain
    rw [resolved, joined_text some] at same
    apply String.toList_inj.mp
    rw [same, ← joined_text some, String.toList_ofList]
  have whole : joined ("app" :: rest) = (PathTexts.absoluteText ("app" :: rest)).toList := by
    rw [← joined_text (by simp), String.toList_ofList]
  rw [underVroot, joined_text some, settled, PathTexts.join, kept, String.intercalate_cons_cons,
    String.intercalate_singleton]
  simp only [PathTexts.normalize, absolute, parts, Bool.not_true, names, if_neg shown, if_neg unended]
  rw [if_neg (by simp), whole]
  simp [PathTexts.absoluteText]

/-- What countinghouse loads for a module, by the place that the name leads to in the module's view: the file at
that place of the package, or elsewhere the host's file of that name. -/
theorem load_file_host (name host : Text) :
    (∀ rest, PathTexts.place ["app"] (String.ofList name) = "app" :: rest →
      specifier site (.text (requested name)) ⟨some host, false⟩ =
        if rest = [] then site.moduleRoot ++ ['/'] else joined (site.rootNames ++ rest)) ∧
    (∀ path, PathTexts.place ["app"] (String.ofList name) = path → path.head? ≠ some "app" →
      specifier site (.text (requested name)) ⟨some host, false⟩ = (PathTexts.absoluteText path).toList) := by
  have app : ∀ part ∈ ["app"], Plain part := by decide
  have plain := (PathTexts.place_resolve app (String.ofList name)).2
  have settled := resolve_place app (String.ofList name)
  constructor
  · intro rest leads
    rw [leads] at plain settled
    have plainRest : ∀ part ∈ rest, Plain part := fun part mem => plain part (List.mem_cons_of_mem _ mem)
    have text : (PathTexts.resolve ["app"] (String.ofList name)).toList = VROOT ++ joined rest := by
      rw [settled, ← joined_text (by simp), String.toList_ofList]
      simp [VROOT]
    have asked : requested name = MODULE_SPECIFIER ++ joined rest := by
      rw [requested, text, specifierFor, insideRoot, inside_append (joined_tail rest), if_pos rfl, moduleSpecifier,
        List.drop_left]
    have isPrefix : MODULE_SPECIFIER.isPrefixOf (MODULE_SPECIFIER ++ joined rest) = true := by simp
    rw [specifier, asked]
    simp only [isPrefix, if_true, List.drop_left]
    by_cases none : rest = []
    · have slash : underVroot (joined rest) = VROOT ++ ['/'] := by
        rw [none]
        decide
      rw [if_pos none, slash, toHost, rebase_append]
    · have shape : joined ("app" :: rest) = VROOT ++ joined rest := by simp [VROOT]
      rw [if_neg none, under_vroot none plainRest, shape, toHost, rebase_append, NamespacePaths.joined_append,
        Site.moduleRoot]
  · intro path leads other
    rw [leads] at plain settled
    have absolute : isAbsolute (PathTexts.absoluteText path).toList = true := by simp [isAbsolute, PathTexts.absoluteText]
    have outside : insideRoot (PathTexts.absoluteText path).toList VROOT = false := by
      rw [Bool.eq_false_iff]
      intro within
      obtain ⟨rest, tail, whole⟩ := (inside_iff _ _).1 within
      by_cases none : path = []
      · rw [none] at whole
        simp [PathTexts.absoluteText, VROOT] at whole
      · rw [← joined_text none, String.toList_ofList, vroot_joined] at whole
        obtain ⟨more, rfl, _⟩ := joined_front (fun n mem => (app n mem).2) (fun n mem => (plain n mem).2) tail whole.symm
        exact other rfl
    have asked : requested name = (PathTexts.absoluteText path).toList := by
      rw [requested, settled, specifierFor, outside, if_neg (by simp)]
    obtain ⟨more, shape⟩ : ∃ more, (PathTexts.absoluteText path).toList = '/' :: more :=
      ⟨("/".intercalate path).toList, by simp [PathTexts.absoluteText]⟩
    have notPrefix : MODULE_SPECIFIER.isPrefixOf (PathTexts.absoluteText path).toList = false := by
      rw [shape]
      rfl
    have notRelative : isRelative (PathTexts.absoluteText path).toList = false := by
      rw [shape]
      rfl
    rw [specifier, asked]
    simp only [notPrefix, beside, notRelative, Bool.false_and, Bool.false_eq_true, if_false]

end LoadFile

end Countinghouse.PackageLookups
