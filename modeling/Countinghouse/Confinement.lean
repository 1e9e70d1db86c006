import Countinghouse.BrokerReach

/-!
Confinement under enforce: what the operations of a module read, list, create, change
or remove lies inside the real path of a root.

It is a property of whole runs: an operation acts where its check looked, or at one of
the loose places, and an open file stays inside the roots when directories move.
-/

namespace Countinghouse.Confinement

open HostTree HostEffects FileNamespace BrokerWorld FsBroker BrokerChecks BrokerWarrant FileWarrants WarrantedRuns BrokerReach
open HostCalls hiding rename link symlink truncate unlink openFile place

/-- The locations that an action reads, lists, creates, changes or removes. The looks
by which the broker decides are no answers to the module. -/
def reached (entry : World × Act) : List Path := (effectOf entry.1 entry.2).touched

def confinedTo (ns : Namespace) (location : Path) : Bool :=
  ns.roots.any fun root => inside location root.real

/-- The operation uses no stale real path, and its loose places lie in roots. -/
def confining (b : Broker) (world : World) (op : Op) : Bool :=
  trusts b world op &&
    (looseReads b world.host.names op ++ looseWrites b world.host.names op).all (confinedTo b.ns)

/-- Every open file lies inside a root, as far as it has a name. -/
def FilesConfined (ns : Namespace) (world : World) : Prop :=
  ∀ entry ∈ world.files, ∀ location, entry.2.location = some location → confinedTo ns location = true

section Steps

variable {b : Broker} {world now : World} {op : Op}

theorem held_confined {want : Want} {location : Path} (held : Held b want location) :
    confinedTo b.ns location = true := by
  obtain ⟨root, holds, _⟩ := held
  obtain ⟨member, within⟩ := root_for_real_some holds
  exact List.any_eq_true.mpr ⟨root, member, within⟩

theorem inside_confined {ns : Namespace} {inner outer : Path} (within : inside inner outer = true)
    (confined : confinedTo ns outer = true) : confinedTo ns inner = true := by
  obtain ⟨root, member, holds⟩ := List.any_eq_true.mp confined
  exact List.any_eq_true.mpr ⟨root, member, inside_trans within holds⟩

theorem below_confined {location : Path}
    (loose : (looseReads b world.host.names op ++ looseWrites b world.host.names op).all (confinedTo b.ns) = true)
    (below : Below b world.host.names op location) : confinedTo b.ns location = true := by
  obtain ⟨place, member, within, _⟩ := below
  exact inside_confined within (List.all_eq_true.mp loose place (List.mem_append_right _ member))

/-- A permitted call acts inside the roots. -/
theorem call_sites_confined {call : Call} {chance : Chance} (guarded : b.enforce = true)
    (meets : confining b world op = true) (same : now.host = (started op world).host)
    (warrant : Warrant b (started op world) op call) :
    ∀ location ∈ sites now.host chance call, confinedTo b.ns location = true := by
  intro location member
  simp only [confining, Bool.and_eq_true] at meets
  rw [same] at member
  have found := warrant_sites guarded (trusts_started meets.1) warrant member
  rw [started_host] at found
  rcases found with held | own | below
  · exact held_confined held
  · exact List.all_eq_true.mp meets.2 location (List.mem_append_left _ own)
  · exact below_confined meets.2 below

theorem open_sites_confined {path : Path} {flags : OpenFlags} (guarded : b.enforce = true)
    (meets : confining b world op = true) (same : now.host = (started op world).host)
    (warrant : OpenWarrant b (started op world) op path flags) :
    ∀ location ∈ openSites now.host.names path flags, confinedTo b.ns location = true := by
  intro location member
  simp only [confining, Bool.and_eq_true] at meets
  rw [same] at member
  have found := open_warrant_sites guarded (trusts_started meets.1) warrant member
  rw [started_host] at found
  rcases found with held | below
  · exact held_confined held
  · exact below_confined meets.2 below

theorem within_confined {call : Call} {chance : Chance}
    (confined : ∀ location ∈ sites now.host chance call, confinedTo b.ns location = true) :
    ∀ location ∈ (exec now.host call chance).1.touched, confinedTo b.ns location = true := by
  intro location member
  obtain ⟨site, among, within⟩ := exec_within now.host chance call location member
  exact inside_confined within (confined site among)

/-- What a permitted action reaches lies inside the roots. -/
theorem permit_confined {act : Act} (guarded : b.enforce = true) (meets : confining b world op = true)
    (files : FilesConfined b.ns now) (permit : Permit b (started op world) op now act) :
    ∀ location ∈ reached (now, act), confinedTo b.ns location = true := by
  cases act with
  | call call => exact within_confined (call_sites_confined guarded meets permit.1 permit.2.2)
  | openFile path flags mode =>
      exact within_confined (open_sites_confined guarded meets permit.1 permit.2)
  | onFile key act =>
      intro location member
      simp only [reached, effectOf] at member
      cases found : now.file key with
      | none => simp [found, Effect.none] at member
      | some file =>
          simp only [found] at member
          refine within_confined (fun site among => ?_) location member
          rw [sites, Option.mem_toList] at among
          exact files (key, file) (mem_of_lookup found) site among
  | _ => simp [reached, effectOf, Effect.none]

/-- A file keeps its place, loses its name, or comes to lie where it was moved. -/
theorem relocate_confined {ns : Namespace} {location after : Path} {change : Change}
    (confined : confinedTo ns location = true) (moves : relocate (some location) change = some after)
    (goal : ∀ source dest, change = .move source dest → confinedTo ns dest = true) :
    confinedTo ns after = true := by
  cases change with
  | add place node => exact Option.some.inj moves ▸ confined
  | drop place spared =>
      simp only [relocate] at moves
      split at moves
      · simp at moves
      · exact Option.some.inj moves ▸ confined
  | move source dest =>
      simp only [relocate] at moves
      split at moves
      · simp at moves
      · have here := Option.some.inj moves
        unfold moved at here
        split at here
        · refine inside_confined ?_ (goal source dest rfl)
          exact (inside_iff _ _).mpr (here ▸ List.prefix_append _ _)
        · exact here ▸ confined

theorem relocated_confined {ns : Namespace} {changes : List Change} {old : Option Path} {after : Path}
    (confined : ∀ location, old = some location → confinedTo ns location = true)
    (moves : changes.foldl relocate old = some after)
    (goal : ∀ source dest, .move source dest ∈ changes → confinedTo ns dest = true) :
    confinedTo ns after = true := by
  induction changes generalizing old with
  | nil => exact confined after moves
  | cons change rest ih =>
      refine ih ?_ moves fun source dest member => goal source dest (List.mem_cons_of_mem _ member)
      intro location same
      cases old with
      | none => simp [relocate] at same
      | some before =>
          refine relocate_confined (confined before rfl) same fun source dest moving => ?_
          exact goal source dest (moving ▸ List.mem_cons_self)

/-- Directories move only to places inside the roots. -/
theorem moves_confined {act : Act} (guarded : b.enforce = true) (meets : confining b world op = true)
    (permit : Permit b (started op world) op now act) :
    ∀ source dest, .move source dest ∈ changesOf now act → confinedTo b.ns dest = true := by
  intro source dest moving
  cases act with
  | call call =>
      have alters := exec_alters now.host now.chance call
      have confined : ∀ location ∈ sites now.host now.chance call, confinedTo b.ns location = true :=
        call_sites_confined guarded meets permit.1 permit.2.2
      simp only [changesOf, World.outcome] at moving
      generalize (exec now.host call now.chance).1.changes = changes at alters moving
      cases alters with
      | moves origin goal src dst sourceAt destAt present named =>
          simp only [List.mem_singleton, Change.move.injEq] at moving
          apply confined
          simp [sites, sourceAt, destAt, located, moving.2]
      | makesDirs path mode count =>
          obtain ⟨entry, _, same⟩ := List.mem_map.mp moving
          simp at same
      | _ => simp at moving
  | openFile path flags mode =>
      have alters := exec_alters now.host now.chance (.openFile path flags mode)
      simp only [changesOf, World.outcome] at moving
      generalize (exec now.host (.openFile path flags mode) now.chance).1.changes = changes at alters moving
      cases alters <;> simp at moving
  | _ => simp [changesOf] at moving

theorem permit_keeps_files {act : Act} (guarded : b.enforce = true) (meets : confining b world op = true)
    (files : FilesConfined b.ns now) (permit : Permit b (started op world) op now act) :
    FilesConfined b.ns (handle act now).2 := by
  intro entry member location at_location
  rcases handle_files now act member with ⟨old, among, stays⟩ | ⟨path, flags, mode, rfl, opened⟩
  · rw [stays.location] at at_location
    exact relocated_confined (fun place same => files _ among place same) at_location
      (moves_confined guarded meets permit)
  · obtain ⟨place, found⟩ := opened_at opened
    rw [found.located] at at_location
    obtain rfl := Option.some.inj at_location
    exact open_sites_confined guarded meets permit.1 permit.2 place found.site

theorem handle_one_confined (guarded : b.enforce = true) (files : FilesConfined b.ns world)
    (meets : confining b world op = true) :
    (handleOne b op).Spec handle (fun now act => ∀ location ∈ reached (now, act), confinedTo b.ns location = true)
      (fun _ after => FilesConfined b.ns after) (fun _ after => FilesConfined b.ns after) world := by
  have steps : ∀ now act, FilesConfined b.ns now → Permit b (started op world) op now act →
      FilesConfined b.ns (handle act now).2 :=
    fun now act kept permit => permit_keeps_files guarded meets kept permit
  have kept := Program.spec_invariant steps files (handle_one_permitted op world)
  exact Program.spec_mono kept (fun now act both => permit_confined guarded meets both.1 both.2)
    (fun _ after both => both.1) fun _ after both => both.1

end Steps

/-- In a run whose operations use no stale real path and whose loose places lie in
roots, everything the module reaches lies inside the real path of a root. -/
theorem runs_stay_confined (b : Broker) (ops : List Op) (world : World) (guarded : b.enforce = true)
    (unopened : world.files = []) (meets : ∀ entry ∈ calls b ops world, confining b entry.1 entry.2 = true) :
    ∀ entry ∈ actions b ops world, ∀ location ∈ reached entry, confinedTo b.ns location = true := by
  have start : FilesConfined b.ns world := by
    intro entry member
    simp [unopened] at member
  exact (run_invariant (fun world op files meets => handle_one_confined guarded files meets) ops world start
    meets).1

/-- A temporary directory named after /data is made beside it, in no root. -/
theorem temporary_directory_beside_a_root :
    (∀ location ino target, lookup smallNames location ≠ some ⟨ino, .link target⟩) ∧
    ¬ ∀ entry ∈ actions (smallBroker smallConfig smallNames) [.mkdtemp (absolute ["data"])]
        (smallWorld smallNames), ∀ location ∈ reached entry,
      confinedTo (smallBroker smallConfig smallNames).ns location = true := by
  refine ⟨fun location ino target => small_names_hold_no_links, fun confined => ?_⟩
  have made : ((actions (smallBroker smallConfig smallNames) [.mkdtemp (absolute ["data"])]
      (smallWorld smallNames)).any fun entry => (reached entry).contains ["srv", "dataAb3dE9"]) = true := by
    decide
  obtain ⟨entry, member, among⟩ := List.any_eq_true.mp made
  have within := confined entry member _ (by simpa using among)
  exact absurd within (by decide)

/-- A temporary directory and a file in it, inside /data. -/
theorem temporary_directory_inside_a_root :
    let ops : List Op := [.mkdtemp (absolute ["data", "t"]),
      .writeFile (absolute ["data", "tAb3dE9", "f"]) [1, 2] .omitted 0o666,
      .rename (absolute ["data", "tAb3dE9"]) (absolute ["data", "u"]), .stat (absolute ["data", "u", "f"])]
    ∀ entry ∈ actions (smallBroker smallConfig smallNames) ops (smallWorld smallNames),
      ∀ location ∈ reached entry, confinedTo (smallBroker smallConfig smallNames).ns location = true := by
  intro ops
  refine runs_stay_confined _ ops _ rfl rfl ?_
  have clear : ((calls (smallBroker smallConfig smallNames) ops (smallWorld smallNames)).all fun entry =>
      confining (smallBroker smallConfig smallNames) entry.1 entry.2) = true := by decide
  exact fun entry member => List.all_eq_true.mp clear entry member

end Countinghouse.Confinement
