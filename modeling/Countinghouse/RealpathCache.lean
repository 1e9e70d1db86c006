import Countinghouse.BrokerReach

/-!
The cache of real paths, `cachedRealpath` of lib/fs-broker/broker.js.

An exclusive operation starts with an empty cache but fills it while it checks its
own paths, and the entries outlive what it then does. They stay true as long as the
names it moves, removes or replaces are not on the way to the directories it looked
up: a link to a directory may be.
-/

namespace Countinghouse.RealpathCache

open HostTree HostCalls HostEffects FileNamespace BrokerWorld FsBroker BrokerChecks BrokerWarrant FileWarrants WarrantedRuns BrokerReach

/-- A look into the cache that is answered with something else than the real path. -/
def stale (entry : World × Act) : Bool :=
  match entry.2 with
  | .cached dir =>
      match entry.1.cache.lookup dir with
      | some hit =>
          entry.1.clock - hit.time < rpCacheMs &&
            match realpath entry.1.host.names dir with
            | .ok real => real != hit.real
            | .error _ => true
      | none => false
  | _ => false

/-- Nothing the operation uproots lies on the way to a directory it looks up. -/
def undisturbed (b : Broker) (world : World) (op : Op) : Bool :=
  (opDirs b op).all fun dir =>
    match realpath world.host.names dir with
    | .error _ => true
    | .ok _ =>
        (trail world.host.names maxLinks [] (Path.segs dir)).all fun name =>
          (uprooted b world.host.names op).all fun location => !inside name location

def CacheTrue (world : World) : Prop :=
  ∀ entry ∈ world.cache, realpath world.host.names entry.1 = .ok entry.2.real

/-- What an undisturbed operation uproots is on the way to none of its directories. -/
theorem clear_of_uprooted {b : Broker} {world : World} {op : Op} {dir real location : Path}
    (clear : undisturbed b world op = true) (member : dir ∈ opDirs b op)
    (found : realpath world.host.names dir = .ok real)
    (gone : location ∈ uprooted b world.host.names op) :
    ∀ name ∈ trail world.host.names maxLinks [] (Path.segs dir), inside name location = false := by
  intro name passed
  have checked := List.all_eq_true.mp clear dir member
  rw [found] at checked
  have apart := List.all_eq_true.mp (List.all_eq_true.mp checked name passed) location gone
  simpa using apart

theorem drop_keeps {names : Names} {dir real location : Path} (spared : List Path)
    (found : realpath names dir = .ok real)
    (apart : ∀ name ∈ trail names maxLinks [] (Path.segs dir), inside name location = false) :
    realpath (Change.apply names (.drop location spared)) dir = .ok real := by
  refine realpath_kept found fun name passed => ?_
  unfold Agrees
  rw [lookup_drop]
  simp [dropped, apart name passed]

theorem move_keeps {names : Names} {dir real source dest : Path}
    (found : realpath names dir = .ok real)
    (fromSource : ∀ name ∈ trail names maxLinks [] (Path.segs dir), inside name source = false)
    (toDest : ∀ name ∈ trail names maxLinks [] (Path.segs dir), inside name dest = false) :
    realpath (Change.apply names (.move source dest)) dir = .ok real := by
  refine realpath_kept found fun name passed => ?_
  unfold Agrees
  rw [lookup_move]
  simp [fromSource name passed, toDest name passed]

theorem permit_keeps_true {b : Broker} {world now : World} {op : Op} {act : Act}
    (clear : undisturbed b world op = true) (told : CacheTrue now)
    (permit : Permit b (started op world) op now act) : CacheTrue (handle act now).2 := by
  intro entry member
  rw [handle_names]
  rcases handle_cache now act member with old | rfl
  · have found := told entry old
    -- by the names the action adds, drops or moves
    cases act with
    | call call =>
        obtain ⟨kept, looked, warrant⟩ := permit
        rw [started_host] at kept
        have only : lockOf op = some .exclusive → entry.1 ∈ opDirs b op := by
          intro exclusive
          rcases looked.cache entry old with before | ⟨among, _⟩
          · simp [started, exclusive] at before
          · exact among
        have alters := exec_alters now.host now.chance call
        change realpath ((exec now.host call now.chance).1.changes.foldl _ _) _ = _
        generalize (exec now.host call now.chance).1.changes = changes at alters
        cases alters with
        | nothing => exact found
        | makes _ location kind site free linking => exact realpath_extends (extends_add _ free) found
        | makesDirs path mode count =>
            exact realpath_extends (planned_dirs_extends _ _ count) found
        | links source dest src dst node sourceAt destAt present plain free =>
            exact realpath_extends (extends_add node free) found
        | drops _ location spared removing site =>
            cases warrant with
            | remove _ _ path make placed host asked sited made inner =>
                have active := removal_uproots asked
                obtain ⟨argument, exclusive, acts⟩ := removal_sites asked
                rw [made, acts] at site
                have at_leaf : leaf now.host.names host = .ok location := by
                  cases leaves : leaf now.host.names host with
                  | ok place => simp [located, leaves] at site; rw [site]
                  | error code => simp [located, leaves] at site
                rw [kept] at found at_leaf ⊢
                exact drop_keeps spared found (clear_of_uprooted clear (only exclusive) found
                  (mem_uprooted active argument (arg_host_of_placed sited) at_leaf))
            | _ => simp [removes] at removing
        | moves source dest src dst sourceAt destAt present named =>
            cases warrant with
            | rename sourceArg destArg origin goal _ _ originAt goalAt inner same =>
                rw [kept] at found sourceAt destAt ⊢
                have apart : ∀ {arg : PathArg} {host location : Path},
                    arg ∈ pathArgs (.rename sourceArg destArg) → argHost b arg = some host →
                    leaf world.host.names host = .ok location →
                    ∀ name ∈ trail world.host.names maxLinks [] (Path.segs entry.1),
                      inside name location = false :=
                  fun argument at_host at_leaf =>
                    clear_of_uprooted clear (only rfl) found (mem_uprooted rfl argument at_host at_leaf)
                exact move_keeps found
                  (apart (by simp [pathArgs]) (arg_host_of_placed originAt) sourceAt)
                  (apart (by simp [pathArgs]) (arg_host_of_placed goalAt) destAt)
            | remove _ _ path make placed host asked sited made inner =>
                have gone := removal_removes asked host
                simp [← made, removes] at gone
    | openFile path flags mode =>
        have alters := exec_alters now.host now.chance (.openFile path flags mode)
        change realpath ((exec now.host (.openFile path flags mode) now.chance).1.changes.foldl _ _) _ = _
        generalize (exec now.host (.openFile path flags mode) now.chance).1.changes = changes at alters
        cases alters with
        | nothing => exact found
        | makes _ location kind site free linking => exact realpath_extends (extends_add _ free) found
        | drops _ location spared removing site => simp [removes] at removing
    | _ => exact found
  · exact permit

theorem true_not_stale {world : World} (told : CacheTrue world) (act : Act) :
    stale (world, act) = false := by
  cases act with
  | cached dir =>
      simp only [stale]
      cases hit : world.cache.lookup dir with
      | none => rfl
      | some entry =>
          have real := told (dir, entry) (mem_of_lookup hit)
          simp only at real
          simp [real]
  | _ => rfl

theorem handle_one_true {b : Broker} {world : World} {op : Op} (told : CacheTrue world)
    (clear : undisturbed b world op = true) :
    (handleOne b op).Spec handle (fun now act => stale (now, act) = false)
      (fun _ after => CacheTrue after) (fun _ after => CacheTrue after) world := by
  have steps : ∀ now act, CacheTrue now → Permit b (started op world) op now act →
      CacheTrue (handle act now).2 :=
    fun now act true_now permit => permit_keeps_true clear true_now permit
  have kept := Program.spec_invariant steps told (handle_one_permitted op world)
  exact Program.spec_mono kept (fun now act both => true_not_stale both.1 act)
    (fun _ after both => both.1) fun _ after both => both.1

/-- In a run of calls none of which uproots a name on the way to a directory it looks
up, every answer from the cache is the real path of that moment. -/
theorem cache_answers_are_real (b : Broker) (ops : List Op) (world : World) (empty : world.cache = [])
    (clear : ∀ entry ∈ calls b ops world, undisturbed b entry.1 entry.2 = true) :
    ∀ entry ∈ actions b ops world, stale entry = false := by
  have start : CacheTrue world := by
    intro entry member
    simp [empty] at member
  exact (run_invariant (fun world op told clear => handle_one_true told clear) ops world start clear).1

/-- A link to its own directory, made by the module and removed through itself. -/
def selfLink : List Op :=
  [.symlink ⟨false, [.here]⟩ (absolute ["data", "l"]),
    .unlink (absolute ["data", "l", "l"]),
    .stat (absolute ["data", "l", "x"])]

/-- The entry of /data/l is used after the link is gone. -/
theorem removed_link_stays_cached :
    ¬ ∀ entry ∈ actions (smallBroker smallConfig smallNames) selfLink (smallWorld smallNames),
      stale entry = false := by
  have found : (actions (smallBroker smallConfig smallNames) selfLink (smallWorld smallNames)).any stale =
      true := by decide
  intro none_stale
  obtain ⟨entry, member, old⟩ := List.any_eq_true.mp found
  simp [none_stale entry member] at old

/-- Removed by its own name, the same link leaves nothing false behind. -/
theorem link_removed_by_name_is_forgotten :
    let ops : List Op := [.symlink ⟨false, [.here]⟩ (absolute ["data", "l"]),
      .unlink (absolute ["data", "l"]), .stat (absolute ["data", "l", "x"])]
    ∀ entry ∈ actions (smallBroker smallConfig smallNames) ops (smallWorld smallNames),
      stale entry = false := by
  intro ops
  refine cache_answers_are_real _ ops _ rfl ?_
  have clear : ((calls (smallBroker smallConfig smallNames) ops (smallWorld smallNames)).all fun entry =>
      undisturbed (smallBroker smallConfig smallNames) entry.1 entry.2) = true := by decide
  exact fun entry member => List.all_eq_true.mp clear entry member

end Countinghouse.RealpathCache
