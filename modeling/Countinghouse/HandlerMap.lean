import Countinghouse.DeviceSpecs
import Countinghouse.FileNamespace

/-!
lib/handler-map.js: a module's handler map against its api.json. A value that a module exports
is known by what a property read finds, which may be no property of its own. Reading one has no
effects.
-/

namespace Countinghouse.HandlerMap

open DeviceSpecs PlainObject

/-! Values. -/
section Values

inductive Kind where
  /-- null, undefined and the primitives -/
  | nothing
  | primitive
  | function
  | array
  /-- An object, and whether its prototype is `Object.prototype` or null. -/
  | object (bare : Bool)
  deriving DecidableEq

/-- `own` are the enumerable properties of the value itself, `further` what else a read finds. -/
inductive Value where
  | mk (kind : Kind) (own further : List (String × Value))

def Value.kind : Value → Kind
  | .mk kind _ _ => kind

def Value.own : Value → Table Value
  | .mk _ own _ => own

def Value.further : Value → Table Value
  | .mk _ _ further => further

/-- `Object.keys(value)` -/
def Value.keys (value : Value) : List String := value.own.map Prod.fst

/-- `value[name]` -/
def Value.read (value : Value) (name : String) : Option Value := (value.own.lookup name).or (value.further.lookup name)

/-- `value[name]`, unless it is null or undefined. -/
def Value.present (value : Value) (name : String) : Option Value :=
  (value.read name).filter fun found => found.kind ≠ .nothing

def Value.isFunction (value : Value) : Bool := value.kind = .function

/-- `typeof value[name] === 'function'` -/
def Value.hasFunction (value : Value) (name : String) : Bool := (value.read name).any Value.isFunction

def Value.isObject (value : Value) : Bool :=
  match value.kind with
  | .object _ => true
  | _ => false

end Values

/-! Short names. -/
section Names

def SERVICE_URN_SEP : String := ":serviceID:"

/-- What follows the last separator. -/
def afterLast (separator : List Char) : List Char → Option (List Char)
  | [] => none
  | c :: rest =>
      match afterLast separator rest with
      | some short => some short
      | none => if separator.isPrefixOf (c :: rest) then some ((c :: rest).drop separator.length) else none

def shortNameOf (serviceURN : String) : Option String :=
  (afterLast SERVICE_URN_SEP.toList serviceURN.toList).map String.ofList

/-- One turn of the loop over the URNs. -/
def addURN (index : Table (List String)) (urn : String) : Table (List String) :=
  match shortNameOf urn with
  | none => index
  | some short => setKey index short ((index.lookup short).getD [] ++ [urn])

def buildServiceIndex (spec : DeviceSpec) : Table (List String) := (spec.services.map Prod.fst).foldl addURN []

def actionNamesOf (service : ServiceSpec) : List String := service.actionList.map ActionSpec.name

/-- `actionNamesOf(serviceList[urn])` -/
def actionsAt (spec : DeviceSpec) (urn : String) : List String :=
  ((spec.services.lookup urn).map actionNamesOf).getD []

end Names

/-! `validateHandlerMap` -/
section Validation

def isHandlerMap (exported : Value) : Bool :=
  exported.kind = .object true && !exported.own.isEmpty &&
    exported.own.all fun service => service.2.isObject && service.2.own.all fun fn => fn.2.isFunction

variable (spec : DeviceSpec) (handlerMap : Value) (moduleName : String)

def stage : String := "stage=assembleHandlerMap"

/-- What every message begins with. -/
def message (text : String) : String := moduleName ++ ": " ++ stage ++ " -- " ++ text

def quoted (text : String) : String := "\"" ++ text ++ "\""

/-- `names.join(', ') || '(none)'` -/
def listed (names : List String) : String :=
  let text := ", ".intercalate names
  if text = "" then "(none)" else text

def notExported : String :=
  message moduleName ("the module does not export a handler map. Expected a plain object of " ++
    "\x7bserviceShortName: \x7bactionName: fn\x7d\x7d. See docs/module-development.md")

def unknownService (short : String) : String :=
  message moduleName ("handler map declares service " ++ quoted short ++
    ", which is not in api.json. Services declared there: " ++
    listed (((buildServiceIndex spec).map Prod.fst).insertionSort fun a b => FileNamespace.textLe a b = true) ++
    ". Top-level keys are service short names (the part after \":serviceID:\" in the URN), not the full URN.")

def ambiguousService (short : String) (urns : List String) : String :=
  message moduleName ("service short name " ++ quoted short ++ " is ambiguous: api.json declares it under " ++
    toString urns.length ++ " URNs (" ++ ", ".intercalate urns ++
    "). Rename one of them so short names are unique within the module.")

def unknownAction (short actionName urn : String) : String :=
  message moduleName ("handler map has " ++ quoted (short ++ "." ++ actionName) ++
    ", which api.json does not declare. Actions declared on " ++ urn ++ ": " ++ listed (actionsAt spec urn) ++
    ". Check for a typo, or add the action to api.json.")

def unnamedService (urn : String) : String :=
  message moduleName ("service URN " ++ quoted urn ++ " has no " ++ quoted SERVICE_URN_SEP ++
    " segment, so it has no short name a handler map can key on.")

def missingService (short urn : String) (declared : Nat) : String :=
  message moduleName ("api.json declares service " ++ quoted short ++ " (" ++ urn ++ ") with " ++ toString declared ++
    " action(s), but the handler map has no " ++ quoted short ++
    " key. Every declared service needs handlers, or the actions can never be called.")

def missingAction (short actionName urn : String) : String :=
  message moduleName ("api.json declares action " ++ quoted (short ++ "." ++ actionName) ++ " (" ++ urn ++
    "), but the handler map has no function for it. Add it, or remove the action from api.json.")

/-- `Object.keys(handlerMap[short])` -/
def actionKeys (short : String) : List String := ((handlerMap.read short).map Value.keys).getD []

/-- Direction 1, for one key of the map. -/
def keyProblems (short : String) : List String :=
  match (buildServiceIndex spec).lookup short with
  | none => [unknownService spec moduleName short]
  | some urns =>
      if 1 < urns.length then [ambiguousService moduleName short urns]
      else
        (actionKeys handlerMap short).flatMap fun actionName =>
          if actionName ∈ actionsAt spec (urns.headD "") then []
          else [unknownAction spec moduleName short actionName (urns.headD "")]

/-- Direction 2, for one declared service. -/
def serviceProblems (service : String × ServiceSpec) : List String :=
  match shortNameOf service.1 with
  | none => [unnamedService moduleName service.1]
  | some short =>
      match handlerMap.present short with
      | none => [missingService moduleName short service.1 (actionNamesOf service.2).length]
      | some actions =>
          (actionNamesOf service.2).flatMap fun actionName =>
            if actions.hasFunction actionName then [] else [missingAction moduleName short actionName service.1]

def validateHandlerMap : List String :=
  if isHandlerMap handlerMap then
    handlerMap.keys.flatMap (keyProblems spec handlerMap moduleName) ++
      spec.services.flatMap (serviceProblems handlerMap moduleName)
  else [notExported moduleName]

end Validation

/-! The property. -/
section Exactness

variable (spec : DeviceSpec) (handlerMap : Value)

/-- A service without actions stands for itself. -/
def pairs (service : String) (actions : List String) : List (String × Option String) :=
  if actions = [] then [(service, none)] else actions.map fun action => (service, some action)

/-- The pairs of the map's own keys. -/
def ownPairs : List (String × Option String) :=
  handlerMap.keys.flatMap fun short => pairs short (actionKeys handlerMap short)

/-- The pairs that api.json declares. -/
def declaredPairs : List (String × Option String) :=
  spec.services.flatMap fun service => ((shortNameOf service.1).map fun short =>
    pairs short (actionNamesOf service.2)).getD []

structure Exact : Prop where
  isMap : isHandlerMap handlerMap = true
  named : ∀ service ∈ spec.services, (shortNameOf service.1).isSome = true
  unique : (spec.services.map fun service => shortNameOf service.1).Nodup
  pairs : ∀ pair, pair ∈ ownPairs handlerMap ↔ pair ∈ declaredPairs spec

/-- What the map has of its own is declared, under one URN. -/
def KeysDeclared : Prop :=
  ∀ short ∈ handlerMap.keys, ∃ service, (spec.services.filter fun service => shortNameOf service.1 = some short) = [service] ∧
    ∀ action ∈ actionKeys handlerMap short, action ∈ actionNamesOf service.2

/-- What is declared is found, when it is looked up in the map. -/
def DeclaredFound : Prop :=
  ∀ service ∈ spec.services, ∃ short, shortNameOf service.1 = some short ∧ ∃ actions, handlerMap.present short = some actions ∧
    ∀ action ∈ actionNamesOf service.2, actions.hasFunction action = true

/-- What is declared is there under keys of the map's own. -/
def DeclaredOwned : Prop :=
  ∀ service ∈ spec.services, ∀ short, shortNameOf service.1 = some short →
    short ∈ handlerMap.keys ∧ ∀ action ∈ actionNamesOf service.2, action ∈ actionKeys handlerMap short

/-- Every key of the map is declared, and all that is declared is found, but not all of it under keys of the map's own. -/
structure Misread : Prop where
  isMap : isHandlerMap handlerMap = true
  keys : KeysDeclared spec handlerMap
  found : DeclaredFound spec handlerMap
  elsewhere : ∃ service ∈ spec.services, ∃ short, shortNameOf service.1 = some short ∧
    (short ∉ handlerMap.keys ∨ ∃ action ∈ actionNamesOf service.2, action ∉ actionKeys handlerMap short)

end Exactness

/-! What `validateHandlerMap` finds. -/
section Findings

variable {spec : DeviceSpec} {handlerMap : Value}

theorem index_lookup (urns : List String) (index : Table (List String)) (short : String) :
    (urns.foldl addURN index).lookup short =
      let named := urns.filter fun urn => shortNameOf urn = some short
      if named = [] then index.lookup short else some ((index.lookup short).getD [] ++ named) := by
  induction urns generalizing index with
  | nil => simp
  | cons urn rest ih =>
      rw [List.foldl_cons, ih]
      unfold addURN
      cases isShort : shortNameOf urn with
      | none => simp [isShort]
      | some other =>
          by_cases same : other = short
          · subst same
            simp only [isShort, lookup_setKey, if_true, List.filter_cons, decide_true, Option.getD_some, reduceCtorEq]
            split <;> simp_all
          · have differs : ¬ short = other := fun equal => same equal.symm
            simp [isShort, lookup_setKey, same, differs]

theorem service_index (spec : DeviceSpec) (short : String) :
    (buildServiceIndex spec).lookup short =
      let named := (spec.services.filter fun service => shortNameOf service.1 = some short).map Prod.fst
      if named = [] then none else some named := by
  have named : (spec.services.map Prod.fst).filter (fun urn => shortNameOf urn = some short) =
      (spec.services.filter fun service => shortNameOf service.1 = some short).map Prod.fst := List.filter_map
  rw [buildServiceIndex, index_lookup, named]
  simp

/-- The only service with the short name is the one that its URN leads to. -/
theorem actions_at {service : String × ServiceSpec} {short : String}
    (one : (spec.services.filter fun service => shortNameOf service.1 = some short) = [service]) :
    actionsAt spec service.1 = actionNamesOf service.2 := by
  have isOne : service ∈ spec.services.filter fun service => shortNameOf service.1 = some short := one ▸ List.mem_singleton_self _
  obtain ⟨member, isShort⟩ := List.mem_filter.mp isOne
  have found : spec.services.lookup service.1 = some service.2 := by
    cases held : spec.services.lookup service.1 with
    | none => exact absurd (List.lookup_eq_none_iff.mp held service member) (by simp)
    | some other =>
        have also : (service.1, other) ∈ spec.services.filter fun service => shortNameOf service.1 = some short :=
          List.mem_filter.mpr ⟨lookup_mem held, isShort⟩
        rw [one, List.mem_singleton] at also
        rw [← also]
  simp [actionsAt, found]

theorem key_problems_iff (moduleName short : String) :
    keyProblems spec handlerMap moduleName short = [] ↔
      ∃ service, (spec.services.filter fun service => shortNameOf service.1 = some short) = [service] ∧
        ∀ action ∈ actionKeys handlerMap short, action ∈ actionNamesOf service.2 := by
  unfold keyProblems
  rw [service_index]
  cases named : spec.services.filter fun service => shortNameOf service.1 = some short with
  | nil => simp
  | cons service others =>
      cases others with
      | nil => simp [List.flatMap_eq_nil_iff, actions_at named]
      | cons second rest => simp

theorem service_problems_iff (moduleName : String) (service : String × ServiceSpec) :
    serviceProblems handlerMap moduleName service = [] ↔
      ∃ short, shortNameOf service.1 = some short ∧ ∃ actions, handlerMap.present short = some actions ∧
        ∀ action ∈ actionNamesOf service.2, actions.hasFunction action = true := by
  unfold serviceProblems
  cases shortNameOf service.1 with
  | none => simp
  | some short =>
      cases found : handlerMap.present short with
      | none => simp [found]
      | some actions => simp [found, List.flatMap_eq_nil_iff]

theorem validate_iff (spec : DeviceSpec) (handlerMap : Value) (moduleName : String) :
    validateHandlerMap spec handlerMap moduleName = [] ↔
      isHandlerMap handlerMap = true ∧ KeysDeclared spec handlerMap ∧ DeclaredFound spec handlerMap := by
  unfold validateHandlerMap
  by_cases isMap : isHandlerMap handlerMap = true
  · rw [if_pos isMap, List.append_eq_nil_iff, List.flatMap_eq_nil_iff, List.flatMap_eq_nil_iff]
    simp only [key_problems_iff, service_problems_iff, isMap, true_and]
    rfl
  · simp [isMap]

end Findings

/-! Where the pairs are the same. -/
section Pairs

variable {spec : DeviceSpec} {handlerMap : Value}

theorem pairs_some (service other action : String) (actions : List String) :
    (other, some action) ∈ pairs service actions ↔ other = service ∧ action ∈ actions := by
  unfold pairs
  split
  · rename_i none
    simp [none]
  · simp [and_comm, eq_comm]

theorem pairs_none (service other : String) (actions : List String) :
    (other, none) ∈ pairs service actions ↔ other = service ∧ actions = [] := by
  unfold pairs
  split
  · rename_i none
    simp [none]
  · rename_i some
    simp [some]

theorem pairs_fst {service : String} {actions : List String} {pair : String × Option String}
    (member : pair ∈ pairs service actions) : pair.1 = service := by
  obtain ⟨other, action⟩ := pair
  cases action with
  | none => exact ((pairs_none _ _ _).mp member).1
  | some action => exact ((pairs_some _ _ _ _).mp member).1

theorem pairs_nonempty (service : String) (actions : List String) : ∃ action, (service, action) ∈ pairs service actions := by
  cases actions with
  | nil => exact ⟨none, (pairs_none _ _ _).mpr ⟨rfl, rfl⟩⟩
  | cons action rest => exact ⟨some action, (pairs_some _ _ _ _).mpr ⟨rfl, List.mem_cons_self⟩⟩

theorem mem_own_pairs {pair : String × Option String} :
    pair ∈ ownPairs handlerMap ↔ pair.1 ∈ handlerMap.keys ∧ pair ∈ pairs pair.1 (actionKeys handlerMap pair.1) := by
  unfold ownPairs
  rw [List.mem_flatMap]
  constructor
  · rintro ⟨short, key, member⟩
    rw [pairs_fst member]
    exact ⟨key, member⟩
  · rintro ⟨key, member⟩
    exact ⟨pair.1, key, member⟩

theorem mem_declared_pairs {pair : String × Option String} :
    pair ∈ declaredPairs spec ↔
      ∃ service ∈ spec.services, shortNameOf service.1 = some pair.1 ∧ pair ∈ pairs pair.1 (actionNamesOf service.2) := by
  unfold declaredPairs
  rw [List.mem_flatMap]
  constructor
  · rintro ⟨service, member, inside⟩
    cases isShort : shortNameOf service.1 with
    | none => simp [isShort] at inside
    | some short =>
        simp only [isShort, Option.map_some, Option.getD_some] at inside
        have same := pairs_fst inside
        exact ⟨service, member, by rw [isShort, same], by rwa [same]⟩
  · rintro ⟨service, member, isShort, inside⟩
    exact ⟨service, member, by simpa [isShort] using inside⟩

/-- A key of the map has an object of functions. -/
theorem own_service (isMap : isHandlerMap handlerMap = true) {short : String} (key : short ∈ handlerMap.keys) :
    ∃ service, handlerMap.present short = some service ∧ actionKeys handlerMap short = service.keys ∧
      ∀ action ∈ service.keys, service.hasFunction action = true := by
  simp only [isHandlerMap, Bool.and_eq_true, List.all_eq_true] at isMap
  have lookedUp : ∀ {value : Value} {name : String}, name ∈ value.keys → ∃ held, value.own.lookup name = some held := by
    intro value name member
    cases held : value.own.lookup name with
    | some found => exact ⟨found, rfl⟩
    | none =>
        obtain ⟨entry, there, rfl⟩ := List.mem_map.mp member
        exact absurd (List.lookup_eq_none_iff.mp held entry there) (by simp)
  obtain ⟨service, held⟩ := lookedUp key
  obtain ⟨isObject, functions⟩ := isMap.2 _ (lookup_mem held)
  have read : handlerMap.read short = some service := by simp [Value.read, held]
  refine ⟨service, ?_, by simp [actionKeys, read], ?_⟩
  · have something : service.kind ≠ .nothing := by
      intro nothing
      simp [Value.isObject, nothing] at isObject
    simp [Value.present, read, something]
  · intro action member
    obtain ⟨fn, isHeld⟩ := lookedUp member
    have isFunction := functions _ (lookup_mem isHeld)
    simp [Value.hasFunction, Value.read, isHeld, isFunction]

theorem unique_filter {services : List (String × ServiceSpec)} {short : String}
    (unique : (services.map fun service => shortNameOf service.1).Nodup)
    {service : String × ServiceSpec} (member : service ∈ services) (isShort : shortNameOf service.1 = some short) :
    (services.filter fun service => shortNameOf service.1 = some short) = [service] := by
  induction services with
  | nil => cases member
  | cons first rest ih =>
      simp only [List.map_cons, List.nodup_cons] at unique
      rcases List.mem_cons.mp member with rfl | later
      · have alone : (rest.filter fun service => shortNameOf service.1 = some short) = [] := by
          rw [List.filter_eq_nil_iff]
          intro other inRest same
          simp only [decide_eq_true_eq] at same
          exact unique.1 (List.mem_map.mpr ⟨other, inRest, by rw [same, isShort]⟩)
        simp [isShort, alone]
      · have differs : shortNameOf first.1 ≠ some short := by
          intro same
          exact unique.1 (List.mem_map.mpr ⟨service, later, by rw [isShort, same]⟩)
        simp [differs, ih unique.2 later]

theorem unique_of_filters {services : List (String × ServiceSpec)}
    (alone : ∀ service ∈ services, ∃ short, shortNameOf service.1 = some short ∧
      (services.filter fun service => shortNameOf service.1 = some short) = [service]) :
    (services.map fun service => shortNameOf service.1).Nodup := by
  induction services with
  | nil => simp
  | cons first rest ih =>
      rw [List.map_cons, List.nodup_cons]
      obtain ⟨short, isShort, one⟩ := alone first List.mem_cons_self
      simp only [List.filter_cons, isShort, decide_true, if_true, List.cons.injEq, true_and] at one
      have differs : ∀ other ∈ rest, shortNameOf other.1 ≠ some short := by
        intro other inRest same
        exact absurd (List.filter_eq_nil_iff.mp one other inRest) (by simp [same])
      refine ⟨?_, ih ?_⟩
      · intro again
        obtain ⟨other, inRest, same⟩ := List.mem_map.mp again
        exact differs other inRest (same.trans isShort)
      · intro service inRest
        obtain ⟨its, isIts, one⟩ := alone service (List.mem_cons_of_mem _ inRest)
        refine ⟨its, isIts, ?_⟩
        have other : shortNameOf first.1 ≠ some its := by
          intro same
          exact differs service inRest (by rw [isIts, ← same, isShort])
        simpa [other] using one

theorem exact_owned (exact : Exact spec handlerMap) : DeclaredOwned spec handlerMap := by
  intro service member short isShort
  have declared : ∀ {action}, (short, action) ∈ pairs short (actionNamesOf service.2) → (short, action) ∈ ownPairs handlerMap :=
    fun inside => (exact.pairs _).mpr (mem_declared_pairs.mpr ⟨service, member, isShort, inside⟩)
  -- a service has a pair even without actions, and that one makes its name a key
  obtain ⟨firstOne, inside⟩ := pairs_nonempty short (actionNamesOf service.2)
  refine ⟨(mem_own_pairs.mp (declared inside)).1, ?_⟩
  intro action listed
  have own := (mem_own_pairs.mp (declared ((pairs_some _ _ action _).mpr ⟨rfl, listed⟩))).2
  exact ((pairs_some _ _ _ _).mp own).2

theorem exact_keys (exact : Exact spec handlerMap) : KeysDeclared spec handlerMap := by
  intro short key
  have declared : ∀ {action}, (short, action) ∈ pairs short (actionKeys handlerMap short) →
      ∃ service ∈ spec.services, shortNameOf service.1 = some short ∧ (short, action) ∈ pairs short (actionNamesOf service.2) :=
    fun inside => mem_declared_pairs.mp ((exact.pairs _).mp (mem_own_pairs.mpr ⟨key, inside⟩))
  obtain ⟨firstOne, inside⟩ := pairs_nonempty short (actionKeys handlerMap short)
  obtain ⟨service, member, isShort, _⟩ := declared inside
  have one := unique_filter exact.unique member isShort
  refine ⟨service, one, ?_⟩
  intro action listed
  -- the pair may come from another service of that name, but there is only one
  obtain ⟨other, also, otherShort, isDeclared⟩ := declared ((pairs_some _ _ action _).mpr ⟨rfl, listed⟩)
  have inFilter : other ∈ spec.services.filter fun service => shortNameOf service.1 = some short :=
    List.mem_filter.mpr ⟨also, by simpa using otherShort⟩
  rw [one, List.mem_singleton] at inFilter
  rw [← inFilter]
  exact ((pairs_some _ _ _ _).mp isDeclared).2

theorem exact_found (exact : Exact spec handlerMap) : DeclaredFound spec handlerMap := by
  intro service member
  obtain ⟨short, isShort⟩ := Option.isSome_iff_exists.mp (exact.named service member)
  obtain ⟨key, keys⟩ := exact_owned exact service member short isShort
  obtain ⟨actions, present, isKeys, functions⟩ := own_service exact.isMap key
  exact ⟨short, isShort, actions, present, fun action listed => functions action (isKeys ▸ keys action listed)⟩

/-- The service of a key is the only one of its name, and has all actions of the key. -/
theorem declared_alone (declared : KeysDeclared spec handlerMap) (owned : DeclaredOwned spec handlerMap)
    {service : String × ServiceSpec} {short : String} (member : service ∈ spec.services) (isShort : shortNameOf service.1 = some short) :
    (spec.services.filter fun service => shortNameOf service.1 = some short) = [service] ∧
      ∀ action ∈ actionKeys handlerMap short, action ∈ actionNamesOf service.2 := by
  obtain ⟨other, one, all⟩ := declared short (owned service member short isShort).1
  have inFilter : service ∈ spec.services.filter fun service => shortNameOf service.1 = some short :=
    List.mem_filter.mpr ⟨member, by simpa using isShort⟩
  rw [one, List.mem_singleton] at inFilter
  exact inFilter ▸ ⟨one, all⟩

/-- Names that are the same on both sides make the same pairs. -/
theorem pairs_agree {service : String} {actions others : List String} (agree : ∀ action, action ∈ actions ↔ action ∈ others)
    (pair : String × Option String) : pair ∈ pairs service actions ↔ pair ∈ pairs service others := by
  obtain ⟨name, action⟩ := pair
  cases action with
  | some action => rw [pairs_some, pairs_some, agree]
  | none =>
      have none : actions = [] ↔ others = [] := by simp only [List.eq_nil_iff_forall_not_mem, agree]
      rw [pairs_none, pairs_none, none]

theorem same_pairs (declared : KeysDeclared spec handlerMap) (owned : DeclaredOwned spec handlerMap)
    (pair : String × Option String) : pair ∈ ownPairs handlerMap ↔ pair ∈ declaredPairs spec := by
  have agree : ∀ {service}, service ∈ spec.services → shortNameOf service.1 = some pair.1 →
      (pair ∈ pairs pair.1 (actionKeys handlerMap pair.1) ↔ pair ∈ pairs pair.1 (actionNamesOf service.2)) := by
    intro service member isShort
    exact pairs_agree (fun action => ⟨(declared_alone declared owned member isShort).2 action,
      (owned service member pair.1 isShort).2 action⟩) pair
  rw [mem_own_pairs, mem_declared_pairs]
  constructor
  · rintro ⟨key, inside⟩
    obtain ⟨service, one, _⟩ := declared pair.1 key
    have inFilter := one ▸ List.mem_singleton_self service
    obtain ⟨member, isShort⟩ := List.mem_filter.mp inFilter
    simp only [decide_eq_true_eq] at isShort
    exact ⟨service, member, isShort, (agree member isShort).mp inside⟩
  · rintro ⟨service, member, isShort, inside⟩
    exact ⟨(owned service member pair.1 isShort).1, (agree member isShort).mpr inside⟩

/-- A map is exact when it passes both directions with nothing but keys of its own. -/
theorem exact_iff (spec : DeviceSpec) (handlerMap : Value) :
    Exact spec handlerMap ↔
      (isHandlerMap handlerMap = true ∧ KeysDeclared spec handlerMap ∧ DeclaredFound spec handlerMap) ∧
        DeclaredOwned spec handlerMap := by
  constructor
  · intro exact
    exact ⟨⟨exact.isMap, exact_keys exact, exact_found exact⟩, exact_owned exact⟩
  · rintro ⟨⟨isMap, declared, found⟩, owned⟩
    refine ⟨isMap, ?_, ?_, same_pairs declared owned⟩
    · intro service member
      obtain ⟨short, isShort, _⟩ := found service member
      simp [isShort]
    · refine unique_of_filters fun service member => ?_
      obtain ⟨short, isShort, _⟩ := found service member
      exact ⟨short, isShort, (declared_alone declared owned member isShort).1⟩

end Pairs

/-! What `validateHandlerMap` says of a map. -/
section Verdicts

theorem misread_iff (spec : DeviceSpec) (handlerMap : Value) :
    Misread spec handlerMap ↔
      (isHandlerMap handlerMap = true ∧ KeysDeclared spec handlerMap ∧ DeclaredFound spec handlerMap) ∧
        ¬ DeclaredOwned spec handlerMap := by
  have elsewhere : ¬ DeclaredOwned spec handlerMap ↔
      ∃ service ∈ spec.services, ∃ short, shortNameOf service.1 = some short ∧
        (short ∉ handlerMap.keys ∨ ∃ action ∈ actionNamesOf service.2, action ∉ actionKeys handlerMap short) := by
    unfold DeclaredOwned
    push Not
    simp only [imp_iff_not_or]
  rw [elsewhere]
  constructor
  · rintro ⟨isMap, keys, found, there⟩
    exact ⟨⟨isMap, keys, found⟩, there⟩
  · rintro ⟨⟨isMap, keys, found⟩, there⟩
    exact ⟨isMap, keys, found, there⟩

/--
No problem is reported for exactly the maps that are as api.json declares, unless everything in a
map is declared and a declared name is found in it that the map itself does not have, such as
`toString` of `Object.prototype`.
-/
theorem handler_map_exact_iff (spec : DeviceSpec) (handlerMap : Value) (moduleName : String) :
    (validateHandlerMap spec handlerMap moduleName = [] ↔ Exact spec handlerMap) ↔ ¬ Misread spec handlerMap := by
  rw [validate_iff, exact_iff, misread_iff]
  tauto

/-- What a read finds in an object that has nothing of its own. -/
def objectPrototype : Table Value := (inheritedNames.erase "__proto__").map fun name => (name, .mk .function [] [])

/-- The spec declares `toString`, and the module exports no function at all. -/
theorem inherited_action_passes :
    let spec : DeviceSpec :=
      ⟨"Printer", some [("urn:example-com:serviceID:print", ⟨[⟨"toString", none, none, none, none⟩]⟩)]⟩
    let exported : Value := .mk (.object true) [("print", .mk (.object true) [] objectPrototype)] objectPrototype
    Accepted spec ∧ ¬ (validateHandlerMap spec exported "printer" = [] ↔ Exact spec exported) := by
  refine ⟨by decide, ?_⟩
  intro exact
  have passes : validateHandlerMap
      ⟨"Printer", some [("urn:example-com:serviceID:print", ⟨[⟨"toString", none, none, none, none⟩]⟩)]⟩
      (.mk (.object true) [("print", .mk (.object true) [] objectPrototype)] objectPrototype) "printer" = [] := by decide
  have pair := ((exact.mp passes).pairs ("print", some "toString")).mpr (by decide)
  exact absurd pair (by decide)

end Verdicts

end Countinghouse.HandlerMap
