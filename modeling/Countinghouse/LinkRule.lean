import Countinghouse.WarrantedRuns

/-!
The link rule of the file broker: a module makes only relative links whose text stays
inside the root. `OPS.symlink` checks it once, on virtual paths; what a link means is
decided by the real directory it lies in.

A target is read here as the walk reads it. It stays below a root as long as it first
climbs no more than its directory is deep and never climbs after a name.
-/

namespace Countinghouse.LinkRule

open HostTree HostEffects FileNamespace BrokerWorld FsBroker BrokerChecks BrokerWarrant FileWarrants WarrantedRuns
open HostCalls hiding rename link symlink truncate unlink openFile place

/-! Targets that stay. -/
section Targets

/-- No step upwards. -/
def level (segs : List Seg) : Bool := segs.all fun seg => seg != .up

/-- First at most `depth` steps upwards, then none. -/
def staying : Nat → List Seg → Bool
  | _, [] => true
  | depth, .here :: rest => staying depth rest
  | 0, .up :: _ => false
  | depth + 1, .up :: rest => staying depth rest
  | _, .name _ :: rest => level rest

theorem level_staying (depth : Nat) (segs : List Seg) (flat : level segs = true) :
    staying depth segs = true := by
  induction segs generalizing depth with
  | nil => simp [staying]
  | cons seg rest ih =>
      simp only [level, List.all_cons, Bool.and_eq_true] at flat
      cases seg with
      | here => simpa [staying] using ih depth flat.2
      | up => simp at flat
      | name name => simpa [staying, level] using flat.2

theorem staying_append (depth : Nat) (first rest : List Seg) (stays : staying depth first = true)
    (flat : level rest = true) : staying depth (first ++ rest) = true := by
  induction first generalizing depth with
  | nil => exact level_staying depth rest flat
  | cons seg first ih =>
      cases seg with
      | here =>
          simp only [List.cons_append, staying] at stays ⊢
          exact ih depth stays
      | up =>
          cases depth with
          | zero => simp [staying] at stays
          | succ depth =>
              simp only [List.cons_append, staying] at stays ⊢
              exact ih depth stays
      | name name =>
          simp only [List.cons_append, staying, level, List.all_append, Bool.and_eq_true] at stays flat ⊢
          exact ⟨stays, flat⟩

theorem staying_mono {shallow deep : Nat} {segs : List Seg} (deeper : shallow ≤ deep)
    (stays : staying shallow segs = true) : staying deep segs = true := by
  induction segs generalizing shallow deep with
  | nil => simp [staying]
  | cons seg rest ih =>
      cases seg with
      | here =>
          simp only [staying] at stays ⊢
          exact ih deeper stays
      | name name => simpa [staying] using stays
      | up =>
          cases shallow with
          | zero => simp [staying] at stays
          | succ shallow =>
              cases deep with
              | zero => omega
              | succ deep =>
                  simp only [staying] at stays ⊢
                  exact ih (by omega) stays

/-- A link at `location` whose target stays below `real`. -/
def stays (real location : Path) (target : PathText) : Bool :=
  !target.absolute && staying (location.length - 1 - real.length) target.segs

def strictlyInside (location real : Path) : Bool := inside location real && location != real

/-- Every link below `real` stays below it. -/
def LinksStay (names : Names) (real : Path) : Prop :=
  ∀ location ino target, strictlyInside location real = true →
    lookup names location = some ⟨ino, .link target⟩ → stays real location target = true

theorem inside_snoc {dir real : Path} (name : Name) (within : inside dir real = true) :
    inside (dir ++ [name]) real = true :=
  (inside_iff _ _).mpr (((inside_iff _ _).mp within).trans (List.prefix_append _ _))

theorem strictly_inside_snoc {dir real : Path} (name : Name) (within : inside dir real = true) :
    strictlyInside (dir ++ [name]) real = true := by
  unfold strictlyInside
  have longer : dir ++ [name] ≠ real := by
    intro same
    have short := ((inside_iff _ _).mp within).length_le
    rw [← same, List.length_append] at short
    simp at short
  simp [inside_snoc name within, longer]

/-- Climbing from deep enough stays inside. -/
theorem inside_drop_last {dir real : Path} (within : inside dir real = true)
    (deep : real.length < dir.length) : inside dir.dropLast real = true := by
  obtain ⟨rest, rfl⟩ := (inside_iff _ _).mp within
  have some_rest : rest ≠ [] := by
    rintro rfl
    simp at deep
  rw [List.dropLast_append_of_ne_nil some_rest]
  exact (inside_iff _ _).mpr (List.prefix_append _ _)

/-- Where links stay, a walk that stays comes by nothing outside. -/
theorem walk_stays (names : Names) (real : Path) (links : LinksStay names real) (count : Nat)
    (dir : Path) (segs : List Seg) (within : inside dir real = true)
    (climb : staying (dir.length - real.length) segs = true) :
    (∀ name ∈ trail names count dir segs, inside name real = true) ∧
      (∀ place left, walk names count dir segs = .found place left → inside place real = true) ∧
      ∀ place left, walk names count dir segs = .missing place left → inside place real = true := by
  induction count, dir, segs using walk_induct names with
  | stop count dir =>
      rw [walk_nil]
      refine ⟨fun name member => ?_, fun place left same => ?_, by simp⟩
      · have here : name = dir := by cases count <;> simpa [trail, trailWith] using member
        exact here ▸ within
      · simp only [Walk.found.injEq] at same
        exact same.1 ▸ within
  | blocked count dir seg rest closed =>
      rw [walk_blocked _ closed, trail_cons]
      simp [closed, within]
  | here count dir rest opened ih =>
      obtain ⟨way, found, missing⟩ := ih within (by simpa [staying] using climb)
      rw [walk_here opened, trail_cons]
      refine ⟨?_, found, missing⟩
      simpa [opened, within] using way
  | up count dir rest opened ih =>
      have deep : real.length < dir.length := by
        cases depth : dir.length - real.length with
        | zero => simp [depth, staying] at climb
        | succ less => omega
      have less : dir.length - real.length = (dir.dropLast.length - real.length) + 1 := by
        rw [List.length_dropLast]
        omega
      rw [less] at climb
      obtain ⟨way, found, missing⟩ := ih (inside_drop_last within deep) (by simpa [staying] using climb)
      rw [walk_up opened, trail_cons]
      refine ⟨?_, found, missing⟩
      simpa [opened, within] using way
  | absent count dir name rest opened absent =>
      rw [walk_absent opened absent, trail_cons]
      refine ⟨?_, ?_, ?_⟩
      · simp [opened, absent, within, inside_snoc name within]
      · intro place left same
        split at same <;> simp at same
      · intro place left same
        split at same
        · simp only [Walk.missing.injEq] at same
          exact same.1 ▸ inside_snoc name within
        · simp at same
  | loop dir name rest ino target opened linked =>
      rw [walk_loop opened linked, trail_cons]
      simp [opened, linked, within, inside_snoc name within]
  | follow count dir name rest ino target opened linked ih =>
      have kept := links _ ino target (strictly_inside_snoc name within) linked
      simp only [stays, Bool.and_eq_true, Bool.not_eq_true', List.length_append, List.length_cons,
        List.length_nil, Nat.zero_add, Nat.add_sub_cancel] at kept
      have start : target.start dir = dir := by simp [PathText.start, kept.1]
      have flat : level rest = true := by simpa [staying] using climb
      rw [start] at ih
      obtain ⟨way, found, missing⟩ := ih within (staying_append _ _ _ kept.2 flat)
      rw [walk_follow opened linked, trail_cons, start]
      refine ⟨?_, found, missing⟩
      simpa [opened, linked, within, inside_snoc name within, start] using way
  | enter count dir name rest node opened present plain ih =>
      have flat : level rest = true := by simpa [staying] using climb
      obtain ⟨way, found, missing⟩ := ih (inside_snoc name within) (level_staying _ _ flat)
      rw [walk_enter opened present plain, trail_cons]
      refine ⟨?_, found, missing⟩
      obtain ⟨ino, kind⟩ := node
      cases kind with
      | link target => exact absurd rfl (plain target)
      | dir => simpa [opened, present, within, inside_snoc name within] using way
      | file => simpa [opened, present, within, inside_snoc name within] using way
      | special => simpa [opened, present, within, inside_snoc name within] using way

end Targets

/-! Giving a link a place. -/
section Places

variable (b : Broker)

/-- The real paths of the writable roots that a location lies below. -/
def enclosing (location : Path) : List Path :=
  (b.ns.roots.filter fun root => root.writable && strictlyInside location root.real).map Root.real

/-- A link with this target stays, at this location, below every writable root. -/
def staysAt (location : Path) (target : PathText) : Bool :=
  (enclosing b location).all fun real => stays real location target

/-- How deep a virtual path's directory is below its root. -/
def virtualDepth (virtual : Path) (within : Root) : Nat := (dirname virtual).length - within.vroot.length

/-- A target that the check of `symlink` lets pass climbs no further than its virtual
directory is deep, and the real directory is as deep below each writable root. -/
def symlinkKept (names : Names) (target : PathText) (path : PathArg) : Bool :=
  match (toVirtualPath b.cwd path).map (FileNamespace.resolve b.ns) with
  | none => true
  | some (.root virtual host within) =>
      match leaf names host with
      | .error _ => true
      | .ok location =>
          (!inside (resolveText (dirname virtual) target) within.vroot ||
            staying (virtualDepth virtual within) target.segs) &&
          (enclosing b location).all fun real =>
            virtualDepth virtual within ≤ location.length - 1 - real.length
  | some other =>
      match leaf names (resolvedVirtual other) with
      | .error _ => true
      | .ok location => staysAt b location target

/-- The object that gets another name is no link, or stays under that name too. -/
def linkKept (names : Names) (src dst : Path) : Bool :=
  match lookup names src with
  | some ⟨_, .link target⟩ => staysAt b dst target
  | _ => true

/-- Every link at or below `src` stays where it comes to lie below `dst`. -/
def moveKept (names : Names) (src dst : Path) : Bool :=
  names.all fun entry =>
    match entry.2.kind with
    | .link target => !inside entry.1 src || staysAt b (dst ++ entry.1.drop src.length) target
    | _ => true

/-- A check of the two locations that an operation names, where both have one. -/
def bothLeaves (names : Names) (source dest : PathArg) (check : Path → Path → Bool) : Bool :=
  match argHost b source, argHost b dest with
  | some sourceHost, some destHost =>
      match leaf names sourceHost, leaf names destHost with
      | .ok src, .ok dst => check src dst
      | _, _ => true
  | _, _ => true

/-- The operation gives no link a place where it does not stay. -/
def linksKept (world : World) : Op → Bool
  | .symlink target path => symlinkKept b world.host.names target path
  | .link source dest => bothLeaves b world.host.names source dest (linkKept b world.host.names)
  | .rename source dest => bothLeaves b world.host.names source dest (moveKept b world.host.names)
  | _ => true

def AllStay (names : Names) : Prop :=
  ∀ root ∈ b.ns.roots, root.writable = true → LinksStay names root.real

variable {b}

theorem stays_at_root {location : Path} {target : PathText} (everywhere : staysAt b location target = true)
    {root : Root} (member : root ∈ b.ns.roots) (writable : root.writable = true)
    (below : strictlyInside location root.real = true) : stays root.real location target = true := by
  apply List.all_eq_true.mp everywhere
  apply List.mem_map.mpr
  exact ⟨root, List.mem_filter.mpr ⟨member, by simp [writable, below]⟩, rfl⟩

theorem add_stays {names : Names} {location : Path} {node : Node} (stay : AllStay b names)
    (placed : ∀ target, node.kind = .link target → staysAt b location target = true) :
    AllStay b (Change.apply names (.add location node)) := by
  intro root member writable path ino target below found
  rw [lookup_add] at found
  split at found
  · next same =>
      subst same
      have kind : node.kind = .link target := by rw [Option.some.inj found]
      exact stays_at_root (placed target kind) member writable below
  · exact stay root member writable path ino target below found

theorem drop_stays {names : Names} {location : Path} {spared : List Path} (stay : AllStay b names) :
    AllStay b (Change.apply names (.drop location spared)) := by
  intro root member writable path ino target below found
  rw [lookup_drop] at found
  split at found
  · simp at found
  · exact stay root member writable path ino target below found

theorem move_stays {names : Names} {src dst : Path} (stay : AllStay b names)
    (kept : moveKept b names src dst = true) : AllStay b (Change.apply names (.move src dst)) := by
  intro root member writable path ino target below found
  rw [lookup_move] at found
  split at found
  · next arrives =>
      split at found
      · simp at found
      have carried := List.all_eq_true.mp kept _ (mem_of_names_lookup found)
      have under : inside (src ++ path.drop dst.length) src = true :=
        (inside_iff _ _).mpr (List.prefix_append _ _)
      simp only [under, Bool.not_true, Bool.false_or, List.drop_left] at carried
      obtain ⟨rest, rfl⟩ := (inside_iff _ _).mp arrives
      rw [List.drop_left] at carried
      exact stays_at_root carried member writable below
  · split at found
    · simp at found
    · exact stay root member writable path ino target below found

theorem adds_stay {entries : List (Path × Node)} {names : Names} (stay : AllStay b names)
    (plain : ∀ entry ∈ entries, ∀ target, entry.2.kind ≠ .link target) :
    AllStay b ((entries.map fun entry => Change.add entry.1 entry.2).foldl Change.apply names) := by
  induction entries generalizing names with
  | nil => exact stay
  | cons entry rest ih =>
      refine ih (add_stays stay fun target kind => ?_) fun other member => plain other (List.mem_cons_of_mem _ member)
      exact absurd kind (plain entry List.mem_cons_self target)

end Places

/-! Runs. -/
section Runs

variable {b : Broker} {world now : World} {op : Op}

/-- A new link stays: by its condition and the check of its text. -/
theorem symlink_stays {target : PathText} {path : PathArg} {placed : Placed} {host location : Path}
    {names : Names} (kept : symlinkKept b names target path = true)
    (sited : PlacedAt b world path .w false placed host) (allowed : linkRefused target placed = false)
    (at_leaf : leaf names host = .ok location) : staysAt b location target = true := by
  obtain ⟨stands, found⟩ := sited
  unfold symlinkKept at kept
  cases stands with
  | above virtual v kids named resolved reading => simp [Placed.host] at found
  | free virtual v named unrooted same unguarded =>
      obtain rfl : v = host := Option.some.inj found
      rw [named, Option.map_some] at kept
      cases resolved : FileNamespace.resolve b.ns virtual with
      | root v host root => exact absurd resolved (unrooted v host root)
      | ancestor other kids =>
          obtain rfl : other = v := by rw [← same, resolved]; rfl
          simpa [resolved, resolvedVirtual, at_leaf] using kept
      | outside other =>
          obtain rfl : other = v := by rw [← same, resolved]; rfl
          simpa [resolved, resolvedVirtual, at_leaf] using kept
  | rooted virtual site named resolved cleared writable =>
      obtain rfl : site.host = host := Option.some.inj found
      rw [named, Option.map_some, resolved] at kept
      simp only [at_leaf, Bool.and_eq_true, Bool.or_eq_true, Bool.not_eq_true'] at kept
      simp only [linkRefused, Bool.or_eq_false_iff, Bool.not_eq_false'] at allowed
      obtain ⟨relative, textually⟩ := allowed
      have climbs : staying (virtualDepth site.virtual site.within) target.segs = true := by
        rcases kept.1 with outside | climbs
        · simp [textually] at outside
        · exact climbs
      apply List.all_eq_true.mpr
      intro real member
      have deep := List.all_eq_true.mp kept.2 real member
      simp only [decide_eq_true_eq] at deep
      simp [stays, relative, staying_mono deep climbs]

theorem both_leaves {names : Names} {source dest : PathArg} {check : Path → Path → Bool}
    {sourceHost destHost src dst : Path} (kept : bothLeaves b names source dest check = true)
    (sourceHosted : argHost b source = some sourceHost) (destHosted : argHost b dest = some destHost)
    (sourceAt : leaf names sourceHost = .ok src) (destAt : leaf names destHost = .ok dst) :
    check src dst = true := by
  simpa [bothLeaves, sourceHosted, destHosted, sourceAt, destAt] using kept

theorem permit_keeps_links {act : Act} (kept : linksKept b world op = true) (stay : AllStay b now.host.names)
    (permit : Permit b (started op world) op now act) : AllStay b (handle act now).2.host.names := by
  rw [handle_names]
  cases act with
  | call call =>
      obtain ⟨same, _, warrant⟩ := permit
      rw [started_host] at same
      have alters := exec_alters now.host now.chance call
      change AllStay b ((exec now.host call now.chance).1.changes.foldl _ _)
      generalize (exec now.host call now.chance).1.changes = changes at alters
      cases alters with
      | nothing => exact stay
      | makes _ location kind site free linking =>
          refine add_stays stay fun target linked => ?_
          obtain ⟨host, rfl⟩ := linking target linked
          cases warrant with
          | symlink _ path placed _ sited allowed =>
              have at_leaf : leaf world.host.names host = .ok location := by
                rw [← same]
                exact (mem_vacant.mp site).1
              exact symlink_stays kept sited allowed at_leaf
          | remove _ _ path make placed host asked sited made inner =>
              have gone := removal_removes asked host
              simp [← made, removes] at gone
      | makesDirs path mode count =>
          refine adds_stay stay fun entry member target linked => ?_
          obtain ⟨_, _, _, planned⟩ := mem_planned_dirs (List.mem_of_mem_take member)
          simp [planned.kind] at linked
      | links source dest src dst node sourceAt destAt present plain free =>
          refine add_stays stay fun target linked => ?_
          cases warrant with
          | link sourceArg destArg origin goal _ _ originAt goalAt roots writable =>
              rw [same] at sourceAt destAt present
              have checked := both_leaves kept (arg_host_of_placed originAt) (arg_host_of_placed goalAt)
                sourceAt destAt
              have found : lookup world.host.names src = some node := by
                unfold nodeAt at present
                split at present
                · obtain rfl := Option.some.inj present
                  simp at linked
                · exact present
              obtain ⟨ino, kind⟩ := node
              simp only at linked
              simpa [linkKept, found, linked] using checked
          | remove _ _ path make placed host asked sited made inner =>
              have gone := removal_removes asked host
              simp [← made, removes] at gone
      | drops _ location spared removing site => exact drop_stays stay
      | moves source dest src dst sourceAt destAt present named =>
          cases warrant with
          | rename sourceArg destArg origin goal _ _ originAt goalAt inner roots =>
              rw [same] at sourceAt destAt stay ⊢
              exact move_stays stay (both_leaves kept (arg_host_of_placed originAt)
                (arg_host_of_placed goalAt) sourceAt destAt)
          | remove _ _ path make placed host asked sited made inner =>
              have gone := removal_removes asked host
              simp [← made, removes] at gone
  | openFile path flags mode =>
      have alters := exec_alters now.host now.chance (.openFile path flags mode)
      change AllStay b ((exec now.host (.openFile path flags mode) now.chance).1.changes.foldl _ _)
      generalize (exec now.host (.openFile path flags mode) now.chance).1.changes = changes at alters
      cases alters with
      | nothing => exact stay
      | makes _ location kind site free linking =>
          refine add_stays stay fun target linked => ?_
          obtain ⟨host, same⟩ := linking target linked
          simp at same
      | drops _ location spared removing site => simp [removes] at removing
  | _ => exact stay

theorem handle_one_links (kept : linksKept b world op = true) (stay : AllStay b world.host.names) :
    (handleOne b op).Spec handle (fun _ _ => True) (fun _ after => AllStay b after.host.names)
      (fun _ after => AllStay b after.host.names) world := by
  have steps : ∀ now act, AllStay b now.host.names → Permit b (started op world) op now act →
      AllStay b (handle act now).2.host.names :=
    fun now act stays permit => permit_keeps_links kept stays permit
  have all := Program.spec_invariant steps stay (handle_one_permitted op world)
  exact Program.spec_mono all (fun _ _ _ => trivial) (fun _ _ both => both.1) fun _ _ both => both.1

/-- The walk of a link's target from where the link lies: where it ends, and every
directory and name it comes by. -/
structure LeadsInside (names : Names) (real location : Path) (target : PathText) : Prop where
  found : ∀ place left, walk names maxLinks (target.start location.dropLast) target.segs = .found place left →
    inside place real = true
  missing : ∀ place left,
    walk names maxLinks (target.start location.dropLast) target.segs = .missing place left →
    inside place real = true
  way : ∀ name ∈ trail names maxLinks (target.start location.dropLast) target.segs,
    inside name real = true

/-- Every link below a writable root leads to a place inside that root. -/
def LinkRuleHolds (ns : Namespace) (names : Names) : Prop :=
  ∀ root ∈ ns.roots, root.writable = true → ∀ location ino target,
    strictlyInside location root.real = true → lookup names location = some ⟨ino, .link target⟩ →
    LeadsInside names root.real location target

theorem stay_leads_inside {names : Names} (stay : AllStay b names) : LinkRuleHolds b.ns names := by
  intro root member writable location ino target below found
  have kept := stay root member writable location ino target below found
  simp only [stays, Bool.and_eq_true, Bool.not_eq_true'] at kept
  simp only [strictlyInside, Bool.and_eq_true, bne_iff_ne] at below
  have deep : root.real.length < location.length := by
    have short := (inside_iff _ _).mp below.1
    rcases Nat.lt_or_ge root.real.length location.length with less | more
    · exact less
    · exact absurd (short.eq_of_length_le more).symm below.2
  have start : target.start location.dropLast = location.dropLast := by simp [PathText.start, kept.1]
  have within := inside_drop_last below.1 deep
  have climb : staying (location.dropLast.length - root.real.length) target.segs = true := by
    rw [List.length_dropLast]
    exact kept.2
  obtain ⟨way, ends, misses⟩ := walk_stays names root.real (stay root member writable) maxLinks _ _ within
    climb
  constructor
  · rw [start]; exact ends
  · rw [start]; exact misses
  · rw [start]; exact way

/-- From writable roots that hold no links, in a run that gives no link a place where
its target climbs out, every link leads inside its root at the end. -/
theorem links_lead_inside_their_root (b : Broker) (ops : List Op) (world : World)
    (clean : ∀ root ∈ b.ns.roots, root.writable = true → ∀ location ino target,
      strictlyInside location root.real = true → lookup world.host.names location ≠ some ⟨ino, .link target⟩)
    (kept : ∀ entry ∈ calls b ops world, linksKept b entry.1 entry.2 = true) :
    LinkRuleHolds b.ns (runAll b ops world).host.names := by
  have start : AllStay b world.host.names := by
    intro root member writable location ino target below found
    exact absurd found (clean root member writable location ino target below)
  exact stay_leads_inside
    (run_invariant (fun _ _ stay kept => handle_one_links kept stay) ops world start kept).2

/-- A link made in a directory and moved up: its target climbs out of /data. -/
def movedUp : List Op :=
  [.mkdir (absolute ["data", "d"]) false 0o777,
    .symlink ⟨false, [.up, .name "app"]⟩ (absolute ["data", "d", "l"]),
    .rename (absolute ["data", "d", "l"]) (absolute ["data", "l"])]

/-- The moved link leads to /srv/app, which is not in /data. -/
theorem moved_link_leads_out :
    (∀ location ino target, lookup smallNames location ≠ some ⟨ino, .link target⟩) ∧
    ¬ LinkRuleHolds (smallBroker smallConfig smallNames).ns
      (runAll (smallBroker smallConfig smallNames) movedUp (smallWorld smallNames)).host.names := by
  refine ⟨fun location ino target => small_names_hold_no_links, fun holds => ?_⟩
  have data : (prepareRoot smallConfig smallNames ["data"] ["srv", "data"] .rw true .data) ∈
      (smallBroker smallConfig smallNames).ns.roots := by decide
  have led := holds _ data (by decide) ["srv", "data", "l"] 101 ⟨false, [.up, .name "app"]⟩ (by decide)
    (by decide)
  have out := led.found ["srv", "app"] 40 (by decide)
  exact absurd out (by decide)

/-- The same link, left where it was made. -/
theorem unmoved_link_leads_inside :
    LinkRuleHolds (smallBroker smallConfig smallNames).ns
      (runAll (smallBroker smallConfig smallNames) (movedUp.take 2) (smallWorld smallNames)).host.names := by
  refine links_lead_inside_their_root _ (movedUp.take 2) _ ?_ ?_
  · intro root member writable location ino target below
    exact small_names_hold_no_links
  · have kept : ((calls (smallBroker smallConfig smallNames) (movedUp.take 2)
        (smallWorld smallNames)).all fun entry =>
          linksKept (smallBroker smallConfig smallNames) entry.1 entry.2) = true := by decide
    exact fun entry member => List.all_eq_true.mp kept entry member

end Runs

end Countinghouse.LinkRule
