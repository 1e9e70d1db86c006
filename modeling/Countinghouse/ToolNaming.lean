import Countinghouse.ToolRegistry

/-!
The loops of `buildToolTargets` and `dedupeName` of lib/mcp/tool-registry.js, on the plain
objects that they fill. A `while` loop goes round at most `fuel` times here; ToolRegistry has
what the loops come to.
-/

namespace Countinghouse.ToolNaming

open FreshNames PlainObject ToolRegistry

/-! `dedupeName` -/
section Search

/-- `usedNames[name] != null` -/
def isUsed (usedNames : Table Bool) (name : String) : Bool :=
  match get usedNames name with
  | .undefined => false
  | _ => true

/-- `while (usedNames[`${name}_${n}`] != null) n++` -/
def search (usedNames : Table Bool) (name : String) : Nat → Nat → Option Nat
  | 0, _ => none
  | fuel + 1, n => if isUsed usedNames (name ++ "_" ++ toString n) then search usedNames name fuel (n + 1) else some n

def dedupeName (fuel : Nat) (usedNames : Table Bool) (name : String) : Option (String × Table Bool) :=
  if isUsed usedNames name then
    (search usedNames name fuel 2).map fun n =>
      (name ++ "_" ++ toString n, setKey usedNames (name ++ "_" ++ toString n) true)
  else some (name, setKey usedNames name true)

/-- The names that are not free. -/
def taken (usedNames : Table Bool) : List String := usedNames.map Prod.fst ++ inheritedNames

theorem used_iff (usedNames : Table Bool) (name : String) : isUsed usedNames name = true ↔ name ∈ taken usedNames := by
  unfold isUsed taken
  cases held : get usedNames name with
  | own value =>
      have member := List.mem_map_of_mem (f := Prod.fst) (lookup_mem (own_lookup held))
      simpa using Or.inl member
  | inherited => simp [inherited_mem held]
  | undefined =>
      have missing := undefined_lookup held
      have absent : name ∉ usedNames.map Prod.fst := by
        rw [List.lookup_eq_none_iff] at missing
        rintro member
        obtain ⟨entry, there, rfl⟩ := List.mem_map.mp member
        simpa using missing entry there
      have unknown : name ∉ inheritedNames := by
        intro known
        rw [get_inherited missing known] at held
        cases held
      simp [absent, unknown]

/-- The search passes the names in use and stops at the first other one. -/
theorem search_finds (usedNames : Table Bool) (name : String) (passed : Nat) :
    ∀ n fuel, passed < fuel → (∀ earlier < passed, name ++ "_" ++ toString (n + earlier) ∈ taken usedNames) →
      name ++ "_" ++ toString (n + passed) ∉ taken usedNames → search usedNames name fuel n = some (n + passed) := by
  induction passed with
  | zero =>
      intro n fuel enough _ free
      obtain ⟨fuel, rfl⟩ : ∃ more, fuel = more + 1 := ⟨fuel - 1, by omega⟩
      have here : ¬ isUsed usedNames (name ++ "_" ++ toString n) = true := fun used => free ((used_iff _ _).mp used)
      rw [search, if_neg here]
      rfl
  | succ passed ih =>
      intro n fuel enough used free
      obtain ⟨fuel, rfl⟩ : ∃ more, fuel = more + 1 := ⟨fuel - 1, by omega⟩
      have here : isUsed usedNames (name ++ "_" ++ toString n) = true := (used_iff _ _).mpr (used 0 (by omega))
      have shift : ∀ k, n + 1 + k = n + (k + 1) := by omega
      rw [search, if_pos here, ih (n + 1) fuel (by omega), shift]
      · intro earlier before
        rw [shift]
        exact used (earlier + 1) (by omega)
      · rwa [shift]

theorem numbered_distinct : Distinct fun name place => suffixed name (place + 1) := by
  intro name place other same
  have := suffixed_distinct name same
  omega

/-- The search ends, whatever is in use. -/
theorem search_ends (usedNames : Table Bool) (name : String) :
    ∃ n, ∀ fuel, (taken usedNames).length < fuel → search usedNames name fuel 2 = some n := by
  obtain ⟨place, within, free⟩ := free_at_exists numbered_distinct (taken usedNames) name
  have number : ∀ k, 2 + k = k + 2 := by omega
  refine ⟨2 + place, fun fuel enough => search_finds usedNames name place 2 fuel (by omega) ?_ ?_⟩
  · intro earlier before
    rw [number]
    exact free.2 earlier before
  · rw [number]
    exact free.1

/-- The loop finds the first name of the series that is not in use. -/
theorem dedupe_eq (usedNames : Table Bool) (name : String) {fuel : Nat} (enough : (taken usedNames).length < fuel) :
    dedupeName fuel usedNames name =
      some (firstFree suffixed (taken usedNames) name,
        setKey usedNames (firstFree suffixed (taken usedNames) name) true) := by
  obtain ⟨place, within, free⟩ := free_at_exists suffixed_distinct (taken usedNames) name
  rw [first_free_at within free]
  cases place with
  | zero =>
      have unused : ¬ isUsed usedNames name = true := fun used => free.1 ((used_iff _ _).mp used)
      rw [dedupeName, if_neg unused]
      rfl
  | succ place =>
      have used : isUsed usedNames name = true := (used_iff _ _).mpr (free.2 0 (by omega))
      -- the first suffix is 2, so the place is two behind the number
      have number : ∀ k, 2 + k = k + 2 := by omega
      have found : search usedNames name fuel 2 = some (2 + place) := by
        refine search_finds usedNames name place 2 fuel (by omega) ?_ ?_
        · intro earlier before
          rw [number]
          exact free.2 (earlier + 1) (by omega)
        · rw [number]
          exact free.1
      rw [dedupeName, if_pos used, found, number]
      rfl

end Search

/-! `buildToolTargets` -/
section Loops

structure Registry where
  targets : Table Target
  usedNames : Table Bool

/-- `for (const reserved in ...) usedNames[reserved] = true` -/
def start : Registry := ⟨[], reservedNames.foldl (fun usedNames name => setKey usedNames name true) []⟩

/-- One action that has a description. -/
def addTool (fuel : Nat) (registry : Registry) (tool : Target × String) : Option Registry :=
  (dedupeName fuel registry.usedNames tool.2).map fun named =>
    ⟨setKey registry.targets named.1 tool.1, named.2⟩

def addAction (fuel : Nat) (deviceID slug : String) (service : Service) (registry : Registry) (action : Action) :
    Option Registry :=
  match actionTool deviceID slug service action with
  | none => some registry
  | some tool => addTool fuel registry tool

def addService (fuel : Nat) (deviceID slug : String) (registry : Registry) (service : Service) : Option Registry :=
  (service.actionList.getD []).foldlM (addAction fuel deviceID slug service) registry

def addDevice (fuel : Nat) (registry : Registry) (device : String × DeviceSpec) : Option Registry :=
  (device.2.serviceList.getD []).foldlM (addService fuel device.1 (deviceSlug device.1 device.2)) registry

/-- `none` is a search that was cut short. -/
def buildToolTargets (fuel : Nat) (specs : Table DeviceSpec) : Option (Table Target) :=
  (specs.foldlM (addDevice fuel) start).map Registry.targets

theorem foldlM_flatMap {α β σ : Type} (f : σ → β → Option σ) (g : α → List β) (items : List α) (s : σ) :
    (items.flatMap g).foldlM f s = items.foldlM (fun s item => (g item).foldlM f s) s := by
  induction items generalizing s with
  | nil => rfl
  | cons item rest ih =>
      simp only [List.flatMap_cons, List.foldlM_append, List.foldlM_cons, ih]

/-- The three loops go through the listed tools. -/
theorem loops_eq (fuel : Nat) (specs : Table DeviceSpec) (registry : Registry) :
    specs.foldlM (addDevice fuel) registry = (listedTools specs).foldlM (addTool fuel) registry := by
  rw [listedTools, foldlM_flatMap]
  congr 1
  funext registry device
  rw [deviceTools, foldlM_flatMap, addDevice]
  congr 1
  funext registry service
  rw [serviceTools, List.foldlM_filterMap, addService]
  congr 1
  funext registry action
  unfold addAction
  split <;> rename_i isTool <;> rw [isTool]
  rfl

/-- The registry after tools that were named from `used` on. -/
structure Filled (used : List String) (registry : Registry) : Prop where
  names : ∀ name, name ∈ registry.usedNames.map Prod.fst ↔ name ∈ used
  size : registry.usedNames.length ≤ used.length
  targets : ∀ name ∈ registry.targets.map Prod.fst, name ∈ used

theorem start_filled : Filled reservedNames start := by
  have names : start.usedNames.map Prod.fst = reservedNames := by decide
  exact ⟨fun name => by rw [names], by decide, by simp [start]⟩

theorem setKey_names (table : Table Bool) (key : String) (value : Bool) (name : String) :
    name ∈ (setKey table key value).map Prod.fst ↔ name = key ∨ name ∈ table.map Prod.fst := by
  by_cases there : key ∈ table.map Prod.fst
  · have found : (table.any fun entry => entry.1 = key) = true := by simpa [List.any_eq_true] using there
    have same : (table.map fun entry => if entry.1 = key then (key, value) else entry).map Prod.fst =
        table.map Prod.fst := by
      rw [List.map_map]
      apply List.map_congr_left
      intro entry _
      by_cases equal : entry.1 = key <;> simp [equal]
    rw [setKey, if_pos found, same]
    constructor
    · exact Or.inr
    · rintro (rfl | member)
      · exact there
      · exact member
  · rw [setKey_absent there]
    simp [or_comm]

/-- No name of a tool's series is a name of `Object.prototype`. -/
def Plain (name : String) : Prop := ∀ place, suffixed name place ∉ inheritedNames

/-- One tool gets the first free name of its series and is added last. -/
theorem add_tool_filled {used : List String} {registry : Registry} (filled : Filled used registry)
    {tool : Target × String} (plain : Plain tool.2) {fuel : Nat} (enough : used.length + inheritedNames.length < fuel) :
    ∃ after, addTool fuel registry tool = some after ∧ Filled (firstFree suffixed used tool.2 :: used) after ∧
      after.targets = registry.targets ++ [(firstFree suffixed used tool.2, tool.1)] := by
  have room : (taken registry.usedNames).length < fuel := by
    have := filled.size
    simp only [taken, List.length_append, List.length_map]
    omega
  have agree : ∀ place, suffixed tool.2 place ∈ taken registry.usedNames ↔ suffixed tool.2 place ∈ used := by
    intro place
    simp [taken, ← filled.names, plain place]
  have named : firstFree suffixed (taken registry.usedNames) tool.2 = firstFree suffixed used tool.2 :=
    first_free_congr suffixed_distinct agree
  have free := first_free_not_used suffixed_distinct used tool.2
  have fresh : firstFree suffixed used tool.2 ∉ registry.usedNames.map Prod.fst :=
    fun member => free ((filled.names _).mp member)
  have absent : firstFree suffixed used tool.2 ∉ registry.targets.map Prod.fst :=
    fun member => free (filled.targets _ member)
  refine ⟨⟨setKey registry.targets (firstFree suffixed used tool.2) tool.1,
    setKey registry.usedNames (firstFree suffixed used tool.2) true⟩, ?_, ⟨?_, ?_, ?_⟩, setKey_absent absent _⟩
  · rw [addTool, dedupe_eq _ _ room, named]
    rfl
  · intro name
    rw [setKey_names, List.mem_cons, filled.names]
  · have := filled.size
    simp only [setKey_absent fresh, List.length_append, List.length_cons, List.length_nil]
    omega
  · intro name member
    simp only [setKey_absent absent, List.map_append, List.mem_append, List.map_cons, List.map_nil,
      List.mem_singleton] at member
    rcases member with there | rfl
    · exact List.mem_cons_of_mem _ (filled.targets name there)
    · exact List.mem_cons_self

theorem add_tools_filled (fuel : Nat) (tools : List (Target × String)) :
    ∀ used registry, Filled used registry → (∀ tool ∈ tools, Plain tool.2) →
      used.length + tools.length + inheritedNames.length < fuel →
      ∃ after, tools.foldlM (addTool fuel) registry = some after ∧
        after.targets = registry.targets ++ assign suffixed used tools := by
  induction tools with
  | nil =>
      intro used registry _ _ _
      exact ⟨registry, rfl, by simp [assign]⟩
  | cons tool rest ih =>
      intro used registry filled plain enough
      simp only [List.length_cons] at enough
      have room : used.length + inheritedNames.length < fuel := by omega
      obtain ⟨middle, added, isFilled, isMiddle⟩ := add_tool_filled filled (plain tool List.mem_cons_self) room
      obtain ⟨after, isAfter, isTargets⟩ := ih _ middle isFilled
        (fun tool member => plain tool (List.mem_cons_of_mem _ member)) (by simp only [List.length_cons]; omega)
      refine ⟨after, ?_, ?_⟩
      · rw [List.foldlM_cons, added]
        exact isAfter
      · rw [isTargets, isMiddle, assign, List.append_assoc]
        rfl

end Loops

/-! What the names are like. -/
section Names

/-- Every action of every device. -/
def actions (specs : Table DeviceSpec) : List (Triple × Action) :=
  specs.flatMap fun device => (device.2.serviceList.getD []).flatMap fun service =>
    (service.actionList.getD []).map fun action => (⟨device.1, service.urn, action.name⟩, action)

/-- The description is a text that is not blank. -/
def isDescribed (action : Action) : Bool := action.description.any fun text => !text.toList.all isSpace

/-- a-z, 0-9 and underscores. -/
def isNameChar (c : Char) : Bool := isSlugChar c || c = '_'

/-- As often as the search goes round at most. -/
def rounds (specs : Table DeviceSpec) : Nat := reservedNames.length + (actions specs).length + inheritedNames.length

theorem collapse_chars (text : List Char) : ∀ c ∈ collapse text, isNameChar c = true := by
  induction text with
  | nil => simp [collapse]
  | cons first rest ih =>
      unfold collapse
      split
      · rename_i slug
        intro c member
        rcases List.mem_cons.mp member with rfl | later
        · simp [isNameChar, slug]
        · exact ih c later
      · split
        · rename_i tail isRest
          exact isRest ▸ ih
        · intro c member
          rcases List.mem_cons.mp member with rfl | later
          · rfl
          · exact ih c later

theorem slugify_chars (text : String) : ∀ c ∈ (slugify text).toList, isNameChar c = true := by
  intro c member
  unfold slugify at member
  simp only at member
  split at member
  · have isX : c = 'x' := by simpa using member
    rw [isX]
    rfl
  · simp only [String.toList_ofList, List.mem_reverse] at member
    have kept := (List.dropWhile_sublist _).subset member
    rw [List.mem_reverse] at kept
    exact collapse_chars _ c ((List.dropWhile_sublist _).subset kept)

theorem underscore_char : ∀ c ∈ "_".toList, isNameChar c = true := by
  intro c member
  have isUnderscore : c = '_' := by simpa using member
  rw [isUnderscore]
  rfl

theorem asked_chars {specs : Table DeviceSpec} {tool : Target × String} (listed : tool ∈ listedTools specs) :
    ∀ c ∈ tool.2.toList, isNameChar c = true := by
  obtain ⟨device, _, ofDevice⟩ := List.mem_flatMap.mp listed
  obtain ⟨service, _, ofService⟩ := List.mem_flatMap.mp ofDevice
  obtain ⟨action, _, isTool⟩ := List.mem_filterMap.mp ofService
  have isDevice : ∀ c ∈ (deviceSlug device.1 device.2).toList, isNameChar c = true := by
    unfold deviceSlug
    split
    · exact slugify_chars _
    · split <;> exact slugify_chars _
  unfold actionTool at isTool
  split at isTool
  · cases isTool
  · split at isTool
    · cases isTool
    · simp only [Option.some.injEq] at isTool
      intro c member
      simp only [← isTool, String.toList_append, List.mem_append] at member
      rcases member with (((inDevice | between) | inLabel) | between) | inAction
      · exact isDevice c inDevice
      · exact underscore_char c between
      · exact slugify_chars _ c inLabel
      · exact underscore_char c between
      · exact slugify_chars _ c inAction

theorem suffixed_chars {name : String} (plain : ∀ c ∈ name.toList, isNameChar c = true) (place : Nat) :
    ∀ c ∈ (suffixed name place).toList, isNameChar c = true := by
  cases place with
  | zero => exact plain
  | succ place =>
      intro c member
      simp only [suffixed, String.toList_append, List.mem_append] at member
      rcases member with (inName | between) | inNumber
      · exact plain c inName
      · exact underscore_char c between
      · have isDigits : (toString (place + 2)).toList = Nat.toDigits 10 (place + 2) := Nat.toList_repr
        rw [isDigits] at inNumber
        have digit := Nat.isDigit_of_mem_toDigits (by decide) (by decide) inNumber
        simp [isNameChar, isSlugChar, digit]

/-- The listed tools are the actions that have a description. -/
theorem listed_actions (specs : Table DeviceSpec) :
    (listedTools specs).map (fun tool => (tool.1.toTriple, tool.1.action)) =
      (actions specs).filter fun entry => isDescribed entry.2 := by
  have ofAction : ∀ (deviceID slug : String) (service : Service) (listed : List Action),
      (listed.filterMap (actionTool deviceID slug service)).map (fun tool => (tool.1.toTriple, tool.1.action)) =
        (listed.map fun action => ((⟨deviceID, service.urn, action.name⟩ : Triple), action)).filter
          fun entry => isDescribed entry.2 := by
    intro deviceID slug service listed
    induction listed with
    | nil => rfl
    | cons action rest ih =>
        cases isText : action.description with
        | none => simpa [actionTool, isDescribed, isText] using ih
        | some text =>
            by_cases blank : text.toList.all isSpace = true
            · simpa [actionTool, isDescribed, isText, blank] using ih
            · simpa [actionTool, isDescribed, isText, blank] using ih
  simp only [listedTools, deviceTools, serviceTools, actions, List.map_flatMap, List.filter_flatMap, ofAction]

end Names

/-! Names tell described actions apart. -/
section Naming

/-- The loops end, and no action takes the name of another one. -/
theorem tools_named_apart (specs : Table DeviceSpec) :
    (∀ usedNames name, ∃ n, ∀ fuel, (taken usedNames).length < fuel → search usedNames name fuel 2 = some n) ∧
      ∃ targets, (∀ fuel, rounds specs < fuel → buildToolTargets fuel specs = some targets) ∧
        targets.map (fun entry => (entry.2.toTriple, entry.2.action)) =
          ((actions specs).filter fun entry => isDescribed entry.2) ∧
        (targets.map Prod.fst).Nodup ∧
        ∀ name ∈ targets.map Prod.fst, (∀ c ∈ name.toList, isNameChar c = true) ∧ name ∉ reservedNames := by
  refine ⟨search_ends, assign suffixed reservedNames (listedTools specs), ?_, ?_, ?_, ?_⟩
  · intro fuel enough
    have few : (listedTools specs).length ≤ (actions specs).length := by
      have lengths := congrArg List.length (listed_actions specs)
      rw [List.length_map] at lengths
      exact lengths ▸ List.length_filter_le _ _
    have plain : ∀ tool ∈ listedTools specs, Plain tool.2 := fun tool listed => series_not_inherited listed
    obtain ⟨after, isAfter, isTargets⟩ := add_tools_filled fuel (listedTools specs) reservedNames start start_filled plain
      (by unfold rounds at enough; omega)
    rw [buildToolTargets, loops_eq, isAfter, Option.map_some, isTargets]
    rfl
  · have inOrder : (assign suffixed reservedNames (listedTools specs)).map Prod.snd = (listedTools specs).map Prod.fst :=
      assign_items _ _
    have named := congrArg (List.map fun target : Target => (target.toTriple, target.action)) inOrder
    rw [List.map_map, List.map_map] at named
    exact named.trans (listed_actions specs)
  · exact (assign_fresh suffixed_distinct _ _).1
  · intro name member
    refine ⟨?_, (assign_fresh suffixed_distinct _ _).2 name member⟩
    obtain ⟨⟨_, target⟩, given, rfl⟩ := List.mem_map.mp member
    obtain ⟨asked, place, listed, isName⟩ := mem_assign suffixed_distinct given
    rw [isName]
    exact suffixed_chars (asked_chars listed) place

end Naming

end Countinghouse.ToolNaming
