import Countinghouse.WarrantedRuns

/-!
Where the calls of an operation act, under enforce.

A check answers for one location: the root that holds it is known, and for a writer
it is writable (`Held`). Four kinds of calls act somewhere else than the check looked
(`looseReads`, `looseWrites`): a temporary directory beside the name that was checked,
the directories of a recursive mkdir whose parent is missing, a file created through
a dangling link, and the own name of a root that is a link.
-/

namespace Countinghouse.BrokerReach

open HostTree HostEffects FileNamespace BrokerWorld FsBroker BrokerChecks BrokerWarrant FileWarrants WarrantedRuns
open HostCalls hiding rename link symlink truncate unlink openFile place

/-! Places the check does not answer for. -/
section Loose

/-- The own name of a root that is a link. -/
def rootNames (b : Broker) (names : Names) (path : PathArg) : List Path :=
  match (toVirtualPath b.cwd path).map (FileNamespace.resolve b.ns) with
  | some (.root virtual host root) =>
      if virtual = root.vroot && leafIsLink names host then located (leaf names host) else []
  | _ => []

/-- Where a creating open arrives through a dangling link. -/
def throughLink (names : Names) (flags : OpenFlags) (host : Path) : List Path :=
  if flags.creat && !flags.excl && leafIsLink names host then
    match HostTree.resolve names host with
    | .missing location _ => [location]
    | _ => []
  else []

/-- The first directory a recursive mkdir makes when the parent of its path is missing. -/
def madeFrom (names : Names) (host : Path) : List Path :=
  match realpath names (dirname host) with
  | .ok _ => []
  | .error _ =>
      match firstMissing names [] host with
      | .ok (some (location, _)) => [location]
      | _ => []

def onHost (b : Broker) (path : PathArg) (places : Path → List Path) : List Path :=
  (argHost b path).toList.flatMap places

def looseReads (b : Broker) (names : Names) : Op → List Path
  | .lstat path | .readlink path | .link path _ => rootNames b names path
  | _ => []

def looseWrites (b : Broker) (names : Names) : Op → List Path
  | .lchown path _ _ | .lutimes path _ _ => rootNames b names path
  | .mkdtemp path => onHost b path fun host => located (realpath names (dirname host))
  | .mkdir path true _ => onHost b path (madeFrom names)
  | .copyFile _ dest excl => onHost b dest (throughLink names { wronly := true, creat := true, excl := excl })
  | op =>
      match opens op with
      | some (path, arg) => (numericFlags arg).toList.flatMap fun flags => onHost b path (throughLink names flags)
      | none => []

theorem mem_on_host {b : Broker} {path : PathArg} {host location : Path} {places : Path → List Path}
    (hosted : argHost b path = some host) (member : location ∈ places host) :
    location ∈ onHost b path places := by
  simpa [onHost, hosted] using member

theorem opens_loose {b : Broker} {names : Names} {op : Op} {path : PathArg} {arg : FlagsArg}
    {flags : OpenFlags} {host location : Path} (asked : opens op = some (path, arg))
    (read : numericFlags arg = some flags) (hosted : argHost b path = some host)
    (member : location ∈ throughLink names flags host) : location ∈ looseWrites b names op := by
  have among := mem_on_host hosted member
  cases op <;> simp only [opens, reduceCtorEq, Option.some.injEq, Prod.mk.injEq] at asked
  all_goals
    obtain ⟨rfl, rfl⟩ := asked
    simpa [looseWrites, opens, read] using among

end Loose

/-! What an operation moves, removes or replaces. -/
section Uprooting

/-- Operations that move, remove or replace names. -/
def uproots : Op → Bool
  | .rmdir _ | .rm _ _ _ | .unlink _ | .rename _ _ => true
  | _ => false

/-- The locations at or below which an operation moves, removes or replaces names. -/
def uprooted (b : Broker) (names : Names) (op : Op) : List Path :=
  if uproots op then
    ((pathArgs op).filterMap (argHost b)).flatMap fun host => located (leaf names host)
  else []

/-- What is uprooted at a host path of the operation. -/
theorem mem_uprooted {b : Broker} {names : Names} {op : Op} {path : PathArg} {host location : Path}
    (active : uproots op = true) (member : path ∈ pathArgs op) (at_host : argHost b path = some host)
    (at_leaf : leaf names host = .ok location) : location ∈ uprooted b names op := by
  unfold uprooted
  rw [if_pos active]
  apply List.mem_flatMap.mpr
  refine ⟨host, List.mem_filterMap.mpr ⟨path, member, at_host⟩, ?_⟩
  simp [located, at_leaf]

theorem removal_uproots {op : Op} {path : PathArg} {make : Path → Call}
    (asked : removal op = some (path, make)) : uproots op = true := by
  cases op <;> simp only [removal, reduceCtorEq, Option.some.injEq, Prod.mk.injEq] at asked
  all_goals rfl

end Uprooting

/-! What a check answers for. -/
section Held

variable {b : Broker} {world : World} {ns : Namespace} {names : Names} {site : Site} {location : Path}

def Held (b : Broker) (want : Want) (location : Path) : Prop :=
  ∃ root, rootForReal b.ns location = some root ∧ (want = .w → root.writable = true)

theorem held_read {want : Want} (held : Held b want location) : Held b .r location := by
  obtain ⟨root, holds, _⟩ := held
  exact ⟨root, holds, by simp⟩

theorem leaf_of_parent {host real : Path} (at_leaf : leaf names host = .ok location)
    (parent : realpath names (dirname host) = .ok real) : location = inParent real host := by
  obtain ⟨other, found, same⟩ := leaf_in_parent at_leaf
  rw [dirname, found] at parent
  rw [same, Except.ok.inj parent]
  rfl

/-- The own name of a site, when it is no link. -/
theorem cleared_leaf {follow : Bool} (cleared : Cleared ns names site follow)
    (at_leaf : leaf names site.host = .ok location) (plain : isLink names location = false) :
    rootForReal ns location = some site.root := by
  obtain ⟨parent, lies, _⟩ := leaf_in_parent at_leaf
  cases cleared with
  | unseen lost own => exact absurd lies (lost parent)
  | name direct inner real parent holds => rwa [leaf_of_parent at_leaf parent]
  | missing followed lost real parent holds => rwa [leaf_of_parent at_leaf parent]
  | object followed place found holds =>
      obtain ⟨left, walked⟩ := realpath_ok_iff.mp found
      rcases resolve_by_leaf at_leaf plain with ⟨_, count, same⟩ | ⟨_, count, other⟩
      · rw [walked] at same
        rwa [← (Walk.found.inj same).1]
      · simp [walked] at other

/-- The own name of a site that is no root, for a check that follows nothing. -/
theorem cleared_inner (cleared : Cleared ns names site false) (inner : site.virtual ≠ site.within.vroot)
    (at_leaf : leaf names site.host = .ok location) : rootForReal ns location = some site.root := by
  obtain ⟨parent, lies, _⟩ := leaf_in_parent at_leaf
  cases cleared with
  | unseen lost own => exact absurd lies (lost parent)
  | name direct other real parent holds => rwa [leaf_of_parent at_leaf parent]
  | object followed place found holds => simp [inner] at followed
  | missing followed lost real parent holds => simp [inner] at followed

theorem cleared_real (cleared : Cleared ns names site true)
    (found : realpath names site.host = .ok location) : rootForReal ns location = some site.root := by
  cases cleared with
  | unseen lost own =>
      obtain ⟨parent, lies⟩ := realpath_parent found
      exact absurd lies (lost parent)
  | name direct inner real parent holds => simp at direct
  | object followed place lies holds =>
      rw [found] at lies
      rwa [Except.ok.inj lies]
  | missing followed lost real parent holds => simp [found] at lost

/-- What an open reaches is held, or was reached through a dangling link. -/
theorem cleared_open (cleared : Cleared ns names site true) {flags : OpenFlags}
    (member : location ∈ openSites names site.host flags) :
    rootForReal ns location = some site.root ∨ location ∈ throughLink names flags site.host := by
  unfold openSites at member
  split at member
  · obtain ⟨at_leaf, free⟩ := mem_vacant.mp member
    exact Or.inl (cleared_leaf cleared at_leaf (vacant_not_link free))
  next shared =>
    cases walked : HostTree.resolve names site.host with
    | failed code => simp [walked] at member
    | found place left =>
        rw [walked, List.mem_singleton] at member
        left
        rw [member]
        exact cleared_real cleared (realpath_ok_iff.mpr ⟨left, walked⟩)
    | missing place left =>
        simp only [walked] at member
        split at member
        · next creating =>
            rw [List.mem_singleton] at member
            obtain ⟨own, at_leaf⟩ := missing_has_leaf walked
            by_cases linked : isLink names own = true
            · right
              simp only [Bool.and_eq_true, Bool.not_eq_true'] at creating
              have loose : flags.excl = false := by simpa [creating.1] using shared
              simp [throughLink, creating.1, loose, leafIsLink, at_leaf, linked, walked, member]
            · left
              have plain : isLink names own = false := by simpa using linked
              rcases resolve_by_leaf at_leaf plain with ⟨_, count, other⟩ | ⟨_, count, same⟩
              · simp [walked] at other
              · rw [walked] at same
                rw [member, (Walk.missing.inj same).1]
                exact cleared_leaf cleared at_leaf plain
        · simp at member

end Held

/-! Placed arguments. -/
section Placing

variable {b : Broker} {world : World} {op : Op} {path : PathArg} {want : Want} {follow : Bool}
  {placed : Placed} {host location : Path}

/-- The cached real paths of an operation's directories are true. -/
def Trusted (b : Broker) (world : World) (op : Op) : Prop := ∀ dir ∈ opDirs b op, TrueFor world dir

/-- The cached real paths that an operation would use are those of the tree. An
exclusive one uses none. -/
def trusts (b : Broker) (world : World) (op : Op) : Bool :=
  decide (lockOf op = some .exclusive) || (opDirs b op).all fun dir =>
    world.cache.all fun entry => entry.1 != dir ||
      match realpath world.host.names dir with
      | .ok real => real == entry.2.real
      | .error _ => false

theorem trusts_started (trusting : trusts b world op = true) : Trusted b (started op world) op := by
  intro dir among hit member
  by_cases exclusive : lockOf op = some .exclusive
  · simp [started, exclusive] at member
  · simp only [trusts, exclusive, decide_false, Bool.false_or] at trusting
    simp only [started, exclusive, if_false] at member ⊢
    have checked := List.all_eq_true.mp (List.all_eq_true.mp trusting dir among) _ member
    simp only [bne_self_eq_false, Bool.false_or] at checked
    cases found : realpath world.host.names dir with
    | error code => simp [found] at checked
    | ok real =>
        rw [found] at checked
        rw [eq_of_beq checked]

/-- Under enforce a path argument with a host path stands in a root. -/
theorem placed_site (guarded : b.enforce = true) (trusted : Trusted b world op)
    (member : path ∈ pathArgs op) (sited : PlacedAt b world path want follow placed host) :
    ∃ site, placed = .rooted site ∧ site.host = host ∧ Cleared b.ns world.host.names site follow ∧
      (want = .w → site.root.writable = true) ∧
      (toVirtualPath b.cwd path).map (FileNamespace.resolve b.ns) =
        some (.root site.virtual site.host site.within) := by
  obtain ⟨stands, found⟩ := sited
  cases stands with
  | above virtual v kids named resolved reading => simp [Placed.host] at found
  | free virtual v named unrooted same unguarded => simp [guarded] at unguarded
  | rooted virtual site named resolved cleared writable =>
      have among : dirname site.host ∈ opDirs b op := by
        apply path_dirs_subset member
        simp [pathDirs, named, resolved]
      refine ⟨site, rfl, Option.some.inj found, cleared guarded (trusted _ among), writable guarded, ?_⟩
      rw [named, Option.map_some, resolved]

variable (guarded : b.enforce = true) (trusted : Trusted b world op) (member : path ∈ pathArgs op)
  (sited : PlacedAt b world path want follow placed host)

include guarded trusted member sited

theorem placed_leaf (at_leaf : leaf world.host.names host = .ok location)
    (plain : isLink world.host.names location = false) : Held b want location := by
  obtain ⟨site, rfl, rfl, cleared, writable, _⟩ := placed_site guarded trusted member sited
  exact ⟨site.root, cleared_leaf cleared at_leaf plain, writable⟩

theorem placed_vacant (free : location ∈ vacant world.host.names host) : Held b want location := by
  obtain ⟨at_leaf, absent⟩ := mem_vacant.mp free
  exact placed_leaf guarded trusted member sited at_leaf (vacant_not_link absent)

theorem placed_inner (direct : follow = false) (inner : isRoot placed = false)
    (at_leaf : leaf world.host.names host = .ok location) : Held b want location := by
  obtain ⟨site, rfl, rfl, cleared, writable, _⟩ := placed_site guarded trusted member sited
  rw [direct] at cleared
  have deeper : site.virtual ≠ site.within.vroot := by simpa [isRoot] using inner
  exact ⟨site.root, cleared_inner cleared deeper at_leaf, writable⟩

/-- The own name is held by the root that was placed, or is that of a linked root. -/
theorem placed_own_root (direct : follow = false) (at_leaf : leaf world.host.names host = .ok location) :
    (∃ root, rootOf placed = some root ∧ rootForReal b.ns location = some root ∧
      (want = .w → root.writable = true)) ∨ location ∈ rootNames b world.host.names path := by
  obtain ⟨site, rfl, rfl, cleared, writable, resolved⟩ := placed_site guarded trusted member sited
  rw [direct] at cleared
  by_cases linked : isLink world.host.names location = true
  · by_cases top : site.virtual = site.within.vroot
    · right
      simp [rootNames, resolved, top, leafIsLink, at_leaf, linked, located]
    · exact Or.inl ⟨site.root, rfl, cleared_inner cleared top at_leaf, writable⟩
  · exact Or.inl ⟨site.root, rfl, cleared_leaf cleared at_leaf (by simpa using linked), writable⟩

theorem placed_own (direct : follow = false) (at_leaf : leaf world.host.names host = .ok location) :
    Held b want location ∨ location ∈ rootNames b world.host.names path := by
  rcases placed_own_root guarded trusted member sited direct at_leaf with ⟨root, _, held⟩ | own
  · exact Or.inl ⟨root, held⟩
  · exact Or.inr own

theorem placed_real (followed : follow = true) (found : realpath world.host.names host = .ok location) :
    Held b want location := by
  obtain ⟨site, rfl, rfl, cleared, writable, _⟩ := placed_site guarded trusted member sited
  rw [followed] at cleared
  exact ⟨site.root, cleared_real cleared found, writable⟩

theorem placed_open {flags : OpenFlags} (followed : follow = true)
    (opened : location ∈ openSites world.host.names host flags) :
    Held b want location ∨ location ∈ throughLink world.host.names flags host := by
  obtain ⟨site, rfl, rfl, cleared, writable, _⟩ := placed_site guarded trusted member sited
  rw [followed] at cleared
  rcases cleared_open cleared opened with holds | through
  · exact Or.inl ⟨site.root, holds, writable⟩
  · exact Or.inr through

/-- An object that a call looks at or edits in place. -/
theorem placed_object (found : HostCalls.place world.host.names host follow = .ok location) :
    Held b want location ∨ follow = false ∧ location ∈ rootNames b world.host.names path := by
  cases follow with
  | true => exact Or.inl (placed_real guarded trusted member sited rfl (by simpa [HostCalls.place] using found))
  | false =>
      rcases placed_own guarded trusted member sited rfl (place_at_leaf found).1 with held | own
      · exact Or.inl held
      · exact Or.inr ⟨rfl, own⟩

end Placing

/-! The calls of an operation. -/
section Warrants

/-- At or below a loose place, with nothing on the way there yet. -/
def Below (b : Broker) (names : Names) (op : Op) (location : Path) : Prop :=
  ∃ place ∈ looseWrites b names op, inside location place = true ∧
    ∀ path, inside path place = true → path ≠ place → inside location path = true →
      nodeAt names path = none

variable {b : Broker} {world : World} {op : Op} {chance : Chance} {location : Path}

theorem loose_below {names : Names} (member : location ∈ looseWrites b names op) :
    Below b names op location := by
  refine ⟨location, member, inside_self location, ?_⟩
  intro path under other beyond
  exact absurd (inside_antisymm under beyond) other

theorem looks_arg {path : PathArg} {follow : Bool} (asked : looks op = some (path, follow)) :
    path ∈ pathArgs op := by
  cases op <;> simp only [looks, reduceCtorEq, Option.some.injEq, Prod.mk.injEq] at asked
  all_goals
    obtain ⟨rfl, _⟩ := asked
    exact List.mem_singleton_self _

theorem attr_edit_arg {path : PathArg} {follow : Bool} {edit : AttrEdit}
    (asked : attrEdit op = some (path, follow, edit)) : path ∈ pathArgs op := by
  cases op <;> simp only [attrEdit, reduceCtorEq, Option.some.injEq, Prod.mk.injEq] at asked
  all_goals
    obtain ⟨rfl, _⟩ := asked
    exact List.mem_singleton_self _

theorem opens_arg {path : PathArg} {arg : FlagsArg} (asked : opens op = some (path, arg)) :
    path ∈ pathArgs op := by
  cases op <;> simp only [opens, reduceCtorEq, Option.some.injEq, Prod.mk.injEq] at asked
  all_goals
    obtain ⟨rfl, _⟩ := asked
    exact List.mem_singleton_self _

theorem attr_edit_loose {names : Names} {path : PathArg} {edit : AttrEdit}
    (asked : attrEdit op = some (path, false, edit)) (own : location ∈ rootNames b names path) :
    location ∈ looseWrites b names op := by
  cases op <;>
    simp only [attrEdit, reduceCtorEq, Option.some.injEq, Prod.mk.injEq, Bool.true_eq_false, false_and,
      and_false] at asked
  all_goals
    obtain ⟨rfl, _⟩ := asked
    exact own

theorem looks_loose {names : Names} {path : PathArg} (asked : looks op = some (path, false))
    (own : location ∈ rootNames b names path) : location ∈ looseReads b names op := by
  cases op <;>
    simp only [looks, reduceCtorEq, Option.some.injEq, Prod.mk.injEq, Bool.true_eq_false, and_false] at asked
  all_goals
    obtain ⟨rfl, _⟩ := asked
    exact own

theorem mem_located {found : Except Errno Path} (member : location ∈ located found) :
    found = .ok location := by
  cases found with
  | error code => simp [located] at member
  | ok place =>
      rw [located, List.mem_singleton] at member
      rw [member]

/-- A temporary directory lies in the directory of the name it was asked for. -/
theorem mkdtemp_below {path : PathArg} {host : Path} {names : Names} {suffix : Name}
    (hosted : argHost b path = some host) (member : location ∈ vacant names (suffixed host suffix)) :
    Below b names (.mkdtemp path) location := by
  obtain ⟨at_leaf, free⟩ := mem_vacant.mp member
  obtain ⟨real, parent, rfl⟩ := leaf_in_parent at_leaf
  have same : (suffixed host suffix).dropLast = dirname host := by
    cases host using List.reverseRecOn with
    | nil => rfl
    | append_singleton dir name => simp [suffixed, dirname]
  have last : (suffixed host suffix).getLast?.toList.length = 1 := by
    cases host using List.reverseRecOn with
    | nil => rfl
    | append_singleton dir name => simp [suffixed]
  obtain ⟨name, named⟩ := List.length_eq_one_iff.mp last
  rw [named] at free ⊢
  rw [same] at parent
  refine ⟨real, mem_on_host hosted (by simp [parent, located]), ?_, ?_⟩
  · exact (inside_iff _ _).mpr (List.prefix_append _ _)
  · intro between under other beyond
    rcases List.prefix_concat_iff.mp ((inside_iff _ _).mp beyond) with whole | short
    · rwa [whole]
    · exact absurd (inside_antisymm under ((inside_iff _ _).mpr short)) other

/-- The directories of a recursive mkdir: its own name, or below the first missing one. -/
theorem mkdir_below {path : PathArg} {placed : Placed} {host : Path} {mode : Nat} (guarded : b.enforce = true)
    (trusted : Trusted b world (.mkdir path true mode)) (sited : PlacedAt b world path .w false placed host)
    (member : location ∈ (plannedDirs world.host host).map Prod.fst) :
    Held b .w location ∨ Below b world.host.names (.mkdir path true mode) location := by
  obtain ⟨entry, among, rfl⟩ := List.mem_map.mp member
  obtain ⟨start, rest, first, planned⟩ := mem_planned_dirs among
  obtain ⟨before, name, split, at_leaf, ⟨place, left, walked⟩, free, nonroot⟩ := first_missing_some first
  rw [List.nil_append] at at_leaf walked
  cases parent : realpath world.host.names (dirname host) with
  | error code =>
      right
      refine ⟨start, mem_on_host (arg_host_of_placed sited) ?_, planned.below, ?_⟩
      · simp [madeFrom, parent, first]
      · intro between under other beyond
        have above : between ≠ [] := by
          rintro rfl
          exact nonroot (List.prefix_nil.mp ((inside_iff _ _).mp under))
        simpa [nodeAt, above] using planned.free between under beyond
  | ok real =>
      left
      -- the parent is there, so nothing follows the missing name
      cases rest with
      | cons next rest =>
          have longer : dirname host = (before ++ [name]) ++ (next :: rest).dropLast := by
            rw [dirname, split, List.dropLast_append_of_ne_nil (by simp), List.append_assoc]
            rfl
          rw [longer] at parent
          exact absurd parent (missing_below walked _ real)
      | nil =>
          have alone : entry.1 = start := by
            unfold plannedDirs missingDirs at among
            simp only [first, newDirs, List.mem_singleton] at among
            rw [among]
          rw [alone]
          have absent : nodeAt world.host.names start = none := by simpa [nodeAt, nonroot] using free
          rw [← split] at at_leaf
          exact placed_leaf guarded trusted (List.mem_singleton_self _) sited at_leaf (vacant_not_link absent)

/-- What a call changes is held by a writable root, or is a loose place. -/
theorem warrant_changes {call : Call} (guarded : b.enforce = true) (trusted : Trusted b world op)
    (warrant : Warrant b world op call) (member : location ∈ changeSites world.host chance call) :
    Held b .w location ∨ Below b world.host.names op location := by
  cases warrant with
  | look _ path follow placed host asked sited => simp [changeSites] at member
  | list path recursive types placed host sited => simp [changeSites] at member
  | mkdir path recursive mode placed host sited =>
      cases recursive with
      | false => exact Or.inl (placed_vacant guarded trusted (List.mem_singleton_self _) sited member)
      | true => exact mkdir_below guarded trusted sited member
  | mkdtemp path placed host sited => exact Or.inr (mkdtemp_below (arg_host_of_placed sited) member)
  | remove _ _ path make placed host asked sited made inner =>
      obtain ⟨argument, _, acts⟩ := removal_sites asked
      rw [made, acts] at member
      exact Or.inl (placed_inner guarded trusted argument sited rfl inner (mem_located member))
  | rename source dest origin goal src dst sourceAt destAt inner same =>
      rcases List.mem_append.mp member with first | second
      · exact Or.inl (placed_inner guarded trusted (by simp [pathArgs]) sourceAt rfl inner.1
          (mem_located first))
      · exact Or.inl (placed_inner guarded trusted (by simp [pathArgs]) destAt rfl inner.2
          (mem_located second))
  | link source dest origin goal src dst sourceAt destAt same writable =>
      exact Or.inl (placed_vacant guarded trusted (by simp [pathArgs]) destAt member)
  | symlink target path placed host sited allowed =>
      exact Or.inl (placed_vacant guarded trusted (List.mem_singleton_self _) sited member)
  | attrs _ path follow edit placed host asked sited =>
      rcases placed_object guarded trusted (attr_edit_arg asked) sited (mem_located member) with
        held | ⟨direct, own⟩
      · exact Or.inl held
      · rw [direct] at asked
        exact Or.inr (loose_below (attr_edit_loose asked own))
  | truncate path length placed host sited =>
      exact Or.inl (placed_real guarded trusted (List.mem_singleton_self _) sited rfl (mem_located member))

/-- Where a call acts, a root is known, or it is a loose place. -/
theorem warrant_sites {call : Call} (guarded : b.enforce = true) (trusted : Trusted b world op)
    (warrant : Warrant b world op call) (member : location ∈ sites world.host chance call) :
    Held b .r location ∨ location ∈ looseReads b world.host.names op ∨
      Below b world.host.names op location := by
  have changing : location ∈ changeSites world.host chance call →
      Held b .r location ∨ location ∈ looseReads b world.host.names op ∨
        Below b world.host.names op location := by
    intro changed
    rcases warrant_changes guarded trusted warrant changed with held | loose
    · exact Or.inl (held_read held)
    · exact Or.inr (Or.inr loose)
  cases warrant with
  | look _ path follow placed host asked sited =>
      rcases placed_object guarded trusted (looks_arg asked) sited (mem_located member) with
        held | ⟨direct, own⟩
      · exact Or.inl held
      · rw [direct] at asked
        exact Or.inr (Or.inl (looks_loose asked own))
  | list path recursive types placed host sited =>
      exact Or.inl (placed_real guarded trusted (List.mem_singleton_self _) sited rfl (mem_located member))
  | link source dest origin goal src dst sourceAt destAt same writable =>
      rcases List.mem_append.mp member with seen | changed
      · rcases placed_own guarded trusted (by simp [pathArgs]) sourceAt rfl (mem_located seen) with held | own
        · exact Or.inl held
        · exact Or.inr (Or.inl own)
      · exact changing changed
  | remove _ _ path make placed host asked sited made inner =>
      have removing := removal_removes asked host
      rw [← made] at removing
      apply changing
      cases call <;> simp [removes] at removing
      all_goals exact member
  | _ => exact changing member

theorem open_warrant_sites {path : Path} {flags : OpenFlags} (guarded : b.enforce = true)
    (trusted : Trusted b world op) (warrant : OpenWarrant b world op path flags)
    (member : location ∈ openSites world.host.names path flags) :
    Held b (if writes flags then .w else .r) location ∨ Below b world.host.names op location := by
  cases warrant with
  | file _ arg text flags placed _ asked read sited =>
      rcases placed_open guarded trusted (opens_arg asked) sited rfl member with held | through
      · left
        obtain ⟨root, holds, writable⟩ := held
        refine ⟨root, holds, fun writing => writable ?_⟩
        have active : writes { flags with trunc := false } = true := by
          by_contra unset
          simp [unset] at writing
        have asks : writes flags = true := by
          simp only [writes, Bool.or_eq_true, Bool.false_eq_true, or_false] at active ⊢
          tauto
        simp [asks]
      · exact Or.inr (loose_below (opens_loose asked read (arg_host_of_placed sited) through))
  | copySource source dest excl placed _ sited =>
      rcases placed_open guarded trusted (by simp [pathArgs]) sited rfl member with held | through
      · exact Or.inl held
      · simp [throughLink] at through
  | copyDest source dest excl placed _ sited =>
      rcases placed_open guarded trusted (by simp [pathArgs]) sited rfl member with held | through
      · exact Or.inl held
      · exact Or.inr (loose_below (mem_on_host (arg_host_of_placed sited) through))

end Warrants

end Countinghouse.BrokerReach
