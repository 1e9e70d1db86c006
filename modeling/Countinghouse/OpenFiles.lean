import Countinghouse.BrokerChecks
import Countinghouse.BrokerClosing
import Countinghouse.ProgramTraces

/-!
The run of `OPS.open` of lib/fs-broker/broker.js under enforce: what it leaves of the host's open
files, the table and the quota, whatever it fails at. Once the host has opened the file, only
`verifyOpened` and the check for special files close it again.
-/

namespace Countinghouse.OpenFiles

open HostTree HostCalls FileNamespace BrokerWorld FsBroker BrokerChecks BrokerClosing ProgramTraces Obligations
open Program (Prog)
open DescriptorDuty (Looks)
open DiskQuota (plus)

/-! Actions that leave the host and the tables alone. -/
section Asking

/-- The host, the tables and what the quota has charged are as they were. -/
structure Same (before after : World) : Prop where
  host : after.host = before.host
  files : after.files = before.files
  nextHandle : after.nextHandle = before.nextHandle
  fds : after.fds = before.fds
  entries : after.entries = before.entries
  nextFd : after.nextFd = before.nextFd
  bytes : after.quota.bytes = before.quota.bytes
  names : after.quota.entries = before.quota.entries

theorem same_refl (world : World) : Same world world := ⟨rfl, rfl, rfl, rfl, rfl, rfl, rfl, rfl⟩

theorem Same.trans {before middle after : World} (first : Same before middle) (second : Same middle after) :
    Same before after where
  host := second.host.trans first.host
  files := second.files.trans first.files
  nextHandle := second.nextHandle.trans first.nextHandle
  fds := second.fds.trans first.fds
  entries := second.entries.trans first.entries
  nextFd := second.nextFd.trans first.nextFd
  bytes := second.bytes.trans first.bytes
  names := second.names.trans first.names

/-- Looking around, the stat of an open file, and forgetting the cache. -/
def Asks : Act → Prop
  | .onFile _ .stat | .clearCache => True
  | action => Looks action

/-- Every action but the opening of a file. -/
def Inner : Act → Prop
  | .openFile _ _ _ => False
  | _ => True

theorem asks_of_looks (action : Act) (looks : Looks action) : Asks action := by
  cases action with
  | onFile => exact looks.elim
  | clearCache => exact looks.elim
  | _ => exact looks

theorem asks_inner {action : Act} (asks : Asks action) : Inner action := by
  cases action with
  | openFile => exact asks.elim
  | _ => trivial

theorem files_applied (world : World) (effect : Effect) (still : effect.changes = []) :
    (world.applied effect).files = world.files := by
  simp [World.applied, still, OpenFile.follow]

theorem applied_touching (world : World) (touched : List Path) :
    world.applied { Effect.none with touched := touched } = world := by
  simp [World.applied, Host.apply, OpenFile.follow, Effect.none]

theorem applied_none (world : World) : world.applied Effect.none = world := applied_touching world []

theorem on_file_stat (world : World) (key : Nat) : (world.onFile key .stat).2 = world.passed := by
  unfold World.onFile
  split
  · rfl
  · next file found =>
      cases failing : world.chance.fault with
      | some fault => simp [World.outcome, exec, failing, refuse, applied_none]
      | none => simp [World.outcome, exec, failing, descriptor, applied_touching]

theorem asks_same (world : World) (action : Act) (asks : Asks action) : Same world (handle action world).2 := by
  cases action with
  | onFile key act =>
      cases act with
      | stat =>
          simp only [handle, on_file_stat]
          exact ⟨rfl, rfl, rfl, rfl, rfl, rfl, rfl, rfl⟩
      | _ => exact asks.elim
  | report rule target =>
      simp only [handle, World.report]
      split <;> exact ⟨rfl, rfl, rfl, rfl, rfl, rfl, rfl, rfl⟩
  | reserve => exact asks.elim
  | openFile => exact asks.elim
  | call => exact asks.elim
  | closeFile => exact asks.elim
  | fdAdd => exact asks.elim
  | fdDrop => exact asks.elim
  | setPos => exact asks.elim
  | settle => exact asks.elim
  | _ => exact ⟨rfl, rfl, rfl, rfl, rfl, rfl, rfl, rfl⟩

/-- If the action is a call on an open file, the host does not fail it. -/
def answered (entry : World × Act) : Bool :=
  match entry.2 with
  | .onFile key act => answers entry.1 key act
  | _ => true

abbrev Answered (entry : World × Act) : Prop := answered entry = true

theorem apart_answered {world : World} {action : Act} (apart : ∀ key act, action ≠ .onFile key act) :
    Answered (world, action) := by
  cases action with
  | onFile key act => exact absurd rfl (apart key act)
  | _ => rfl

theorem looks_answered {entry : World × Act} (looks : Looks entry.2) : Answered entry := by
  refine apart_answered fun key act isCall => ?_
  rw [isCall] at looks
  exact looks

end Asking

/-! What follows when the host has opened the file `key`. -/
section Opened

variable {α : Type} {world : World} {key : Nat}

def shut (key : Nat) (world : World) : World := (handle (.closeFile key) world).2

theorem Same.shut {before after : World} (same : Same before after) (key : Nat) :
    Same (shut key before) (shut key after) :=
  { same with files := congrArg (List.filter fun entry : Nat × OpenFile => entry.1 != key) same.files }

/-- The code ends well, or it fails: then nothing has changed but that the file is closed, or the host has failed a
call on it. -/
def Kept (key : Nat) (ok : α → World → Prop) (world : World) (done : List (World × Act)) (result : Except NodeError α)
    (after : World) : Prop :=
  (∀ entry ∈ done, Inner entry.2) ∧
    match result with
    | .ok value => ok value after ∧ ∀ entry ∈ done, Answered entry
    | .error _ =>
        (Same world after ∧ ¬∀ entry ∈ done, Answered entry) ∨
          (Same (shut key world) after ∧ ∀ entry ∈ done, Answered entry)

/-- Nothing has changed where the code ends well. -/
def Steady (key : Nat) (world : World) : List (World × Act) → Except NodeError α → World → Prop :=
  Kept key (fun _ => Same world) world

theorem kept_pure {ok : α → World → Prop} {value : α} (holds : ok value world) :
    Ends handle (Kept key ok world) (pure value : Code α) world :=
  ends_pure ⟨by simp, holds, by simp⟩

theorem steady_pure (value : α) : Ends handle (Steady key world) (pure value : Code α) world := kept_pure (same_refl world)

theorem kept_bind {β : Type} {ok : β → World → Prop} {first : Code α} {rest : α → Code β}
    (head : Ends handle (Steady key world) first world)
    (tail : ∀ value after, Same world after → Ends handle (Kept key ok after) (rest value) after) :
    Ends handle (Kept key ok world) (first >>= rest) world := by
  apply ends_bind _ head
  · rintro done value after ⟨inner, same, answered⟩
    refine ends_mono (tail value after same) ?_
    rintro more result final ⟨innerMore, ended⟩
    refine ⟨List.forall_mem_append.mpr ⟨inner, innerMore⟩, ?_⟩
    cases result with
    | ok value => exact ⟨ended.1, List.forall_mem_append.mpr ⟨answered, ended.2⟩⟩
    | error error =>
        rw [List.forall_mem_append]
        rcases ended with ⟨kept, failed⟩ | ⟨closed, fine⟩
        · exact .inl ⟨same.trans kept, fun all => failed all.2⟩
        · exact .inr ⟨(same.shut key).trans closed, answered, fine⟩
  · exact fun done error after kept => kept

theorem kept_mono {ok other : α → World → Prop} {code : Code α} (ends : Ends handle (Kept key ok world) code world)
    (weaker : ∀ value after, ok value after → other value after) : Ends handle (Kept key other world) code world := by
  refine ends_mono ends ?_
  rintro done result after ⟨inner, ended⟩
  refine ⟨inner, ?_⟩
  cases result with
  | ok value => exact ⟨weaker value after ended.1, ended.2⟩
  | error error => exact ended

theorem steady_bind {β : Type} {first : Code α} {rest : α → Code β} (head : Ends handle (Steady key world) first world)
    (tail : ∀ value after, Same world after → Ends handle (Steady key after) (rest value) after) :
    Ends handle (Steady key world) (first >>= rest) world :=
  kept_bind head fun value after same => kept_mono (tail value after same) fun _ _ => same.trans

/-- Code that only looks and does not fail. -/
theorem steady_looks {code : Code α} (only : Only Looks code) (passes : ∃ value, (code.run handle world).1 = .ok value) :
    Ends handle (Steady key world) code world := by
  obtain ⟨looks, same⟩ : Ends handle (fun done _ after => (∀ entry ∈ done, Looks entry.2) ∧ Same world after) code world :=
    ends_only same_refl Same.trans (fun world action looks => asks_same world action (asks_of_looks action looks)) only
  obtain ⟨value, isOk⟩ := passes
  refine ⟨fun entry member => asks_inner (asks_of_looks _ (looks entry member)), ?_⟩
  rw [isOk]
  exact ⟨same, fun entry member => looks_answered (looks entry member)⟩

theorem steady_act {action : Act} (looks : Looks action) :
    Ends handle (Steady key world) (FsBroker.perform action) world :=
  steady_looks ⟨looks, fun _ => trivial⟩ ⟨_, rfl⟩

theorem or_null_passes (code : Code α) : ∃ value, ((orNull code).run handle world).1 = .ok value := by
  have ends : Ends handle (fun _ result _ => ∃ value, result = .ok value) (orNull code) world := by
    refine ends_catch (fun _ _ _ => True) trivial ?_ ?_
    · exact fun _ value _ _ => ⟨value, rfl⟩
    · exact fun _ _ _ _ => ends_pure ⟨none, rfl⟩
  exact ends

/-- A call that is refused has done nothing. -/
theorem descriptor_refused {host : Host} {file : OpenFile} {short : Option Nat} {act : FdAct} {code : Errno}
    (refused : (descriptor host file short act).2 = .error code) :
    (descriptor host file short act).1 = Effect.none := by
  cases act with
  | read position length =>
      simp only [descriptor] at refused ⊢
      split_ifs at refused ⊢ <;> rfl
  | write position bytes =>
      simp only [descriptor] at refused ⊢
      split_ifs at refused ⊢
      rfl
  | truncate length =>
      cases length with
      | none => rfl
      | some size =>
          simp only [descriptor] at refused ⊢
          split_ifs at refused ⊢
          rfl
  | attrs edit => cases refused
  | stat => cases refused
  | sync => cases refused

theorem on_file_failed {act : FdAct} {code : Errno} (failed : (world.onFile key act).1 = .error code) :
    (world.onFile key act).2 = world.passed := by
  unfold World.onFile at failed ⊢
  split at failed
  · rfl
  · next file found =>
      have none : ∀ code, (world.outcome (.descriptor file act)).2 = .error code →
          (world.outcome (.descriptor file act)).1 = Effect.none := by
        intro code refused
        cases failing : world.chance.fault with
        | some fault => simp [World.outcome, exec, failing, refuse]
        | none =>
            simp only [World.outcome, exec, failing] at refused ⊢
            exact descriptor_refused refused
      dsimp only at failed ⊢
      split at failed
      · cases failed
      · cases failed
      · rw [none code failed, applied_none]

theorem ends_call {syscall : String} {act : FdAct} {claim : List (World × Act) → Except NodeError Reply → World → Prop}
    (goes : ∀ reply, (world.onFile key act).1 = .ok reply →
      claim [(world, .onFile key act)] (.ok reply) (world.onFile key act).2)
    (fails : ∀ code, (world.onFile key act).1 = .error code →
      claim [(world, .onFile key act)] (.error (hostError syscall code)) (world.onFile key act).2) :
    Ends handle claim (fhCall syscall key act) world := by
  show claim ((world, .onFile key act) ::
      (raised syscall (world.onFile key act).1).trace handle (world.onFile key act).2)
    ((raised syscall (world.onFile key act).1).run handle (world.onFile key act).2).1
    ((raised syscall (world.onFile key act).1).run handle (world.onFile key act).2).2
  cases answer : (world.onFile key act).1 with
  | ok reply => exact goes reply answer
  | error code => exact fails code answer

theorem call_answered {act : FdAct} {reply : Reply} (isReply : (world.onFile key act).1 = .ok reply) :
    Answered (world, .onFile key act) := by
  show answers world key act = true
  simp [answers, isReply]

/-- A call that the host fails leaves everything, and the file open. -/
theorem call_failed {act : FdAct} {code : Errno} (failed : (world.onFile key act).1 = .error code) :
    Same world (world.onFile key act).2 ∧ ¬Answered (world, .onFile key act) := by
  constructor
  · rw [on_file_failed failed]
    exact ⟨rfl, rfl, rfl, rfl, rfl, rfl, rfl, rfl⟩
  · simp [answered, answers, failed]

/-- The stat of the file. -/
theorem steady_stat : Ends handle (Steady key world) (fhStat key) world := by
  apply ends_bind (fun done result after => done = [(world, .onFile key .stat)] ∧ Same world after ∧
    match result with
    | .ok reply => Answered (world, .onFile key .stat) ∧
        ∃ location node inode links, reply = .seen location node inode links
    | .error _ => ¬Answered (world, .onFile key .stat))
  · apply ends_call
    · intro reply isReply
      exact ⟨rfl, asks_same world (.onFile key .stat) trivial, call_answered isReply, stat_seen isReply⟩
    · intro code failed
      exact ⟨rfl, call_failed failed⟩
  · rintro done reply after ⟨rfl, same, answered, location, node, inode, links, rfl⟩
    exact ends_pure ⟨by simp [Inner], same, by simpa using answered⟩
  · rintro done error after ⟨rfl, same, failed⟩
    exact ⟨by simp [Inner], .inl ⟨same, by simpa using failed⟩⟩

variable (b : Broker) {site : Site} {writes : Bool}

theorem steady_inRoot (ok : Bool) : Ends handle (Steady key world) (sameOpened.inRoot b key site writes ok) world := by
  unfold sameOpened.inRoot
  refine ends_ite (fun _ => ?_) fun _ => steady_pure false
  refine steady_bind (steady_act trivial) fun link after same => ?_
  split
  · exact steady_pure true
  · split
    · exact steady_pure false
    · exact steady_pure _

theorem steady_same (ident : Ident) : Ends handle (Steady key world) (sameOpened b key site writes ident) world := by
  cases ident with
  | parent real =>
      refine steady_bind ?_ fun _ _ _ => steady_inRoot b _
      exact steady_looks (DescriptorDuty.only_orNull (DescriptorDuty.looks_fsRealpath _)) (or_null_passes _)
  | node ino => exact steady_bind steady_stat fun _ _ _ => steady_inRoot b _

/-- The file is closed, and the code fails. -/
theorem kept_closed {ok : α → World → Prop} {rest : Code α} (only : Only Looks rest)
    (fails : ∃ error, (rest.run handle (shut key world)).1 = .error error) :
    Ends handle (Kept key ok world) (fhClose key >>= fun _ => rest) world := by
  obtain ⟨looks, same⟩ : Ends handle (fun done _ after => (∀ entry ∈ done, Looks entry.2) ∧ Same (shut key world) after)
      rest (shut key world) :=
    ends_only same_refl Same.trans (fun world action looks => asks_same world action (asks_of_looks action looks)) only
  obtain ⟨error, failed⟩ := fails
  show Kept key ok world ((world, .closeFile key) :: rest.trace handle (shut key world)) (rest.run handle (shut key world)).1
    (rest.run handle (shut key world)).2
  have closing : Answered (world, .closeFile key) := rfl
  refine ⟨List.forall_mem_cons.mpr ⟨trivial, fun entry member => asks_inner (asks_of_looks _ (looks entry member))⟩, ?_⟩
  rw [failed]
  exact .inr ⟨same, List.forall_mem_cons.mpr ⟨closing, fun entry member => looks_answered (looks entry member)⟩⟩

theorem report_passes (rule : Rule) (target : Path) (world : World) :
    ((report b rule target).run handle world).1 = .ok () := by
  unfold report onlyIf
  split <;> rfl

theorem report_throws (rule : Rule) (target : Path) (error : NodeError) (world : World) :
    ((report b rule target >>= fun _ => (throw error : Code α)).run handle world).1 = .error error := by
  unfold report onlyIf
  split <;> rfl

theorem steady_verify (placed : Placed) (syscall : String) :
    Ends handle (Steady key world) (verifyOpened b key placed syscall writes) world := by
  unfold verifyOpened
  split
  · split
    · refine ends_ite (fun _ => ?_) fun _ => steady_pure ()
      refine steady_bind (steady_same b _) fun ok after same => ?_
      cases ok with
      | true => exact steady_pure ()
      | false =>
          exact kept_closed (only_bind (DescriptorDuty.looks_report b _ _) fun _ => only_throw _)
            ⟨_, report_throws b _ _ _ _⟩
    · exact steady_pure ()
  · exact steady_pure ()

theorem steady_special (placed : Placed) (st : Stats) :
    Ends handle (Steady key world) (refuseSpecial b key placed st) world := by
  unfold refuseSpecial onlyIf
  refine ends_ite (fun _ => ?_) fun _ => steady_pure ()
  refine steady_bind (steady_looks (DescriptorDuty.looks_report b _ _) ⟨_, report_passes b _ _ _⟩) fun _ after same => ?_
  refine ends_ite (fun _ => ?_) fun _ => steady_pure ()
  exact kept_closed (only_throw _) ⟨_, rfl⟩

/-- What the truncation leaves of the tables. -/
structure Beside (before after : World) : Prop where
  files : after.files = before.files
  entries : after.entries = before.entries
  nextFd : after.nextFd = before.nextFd

theorem on_file_truncate (world : World) (key : Nat) (length : Option Int) :
    Beside world (world.onFile key (.truncate length)).2 := by
  unfold World.onFile
  split
  · exact ⟨rfl, rfl, rfl⟩
  · next file found =>
      have still : (world.outcome (.descriptor file (.truncate length))).1.changes = [] ∧
          ((world.outcome (.descriptor file (.truncate length))).2 = .ok .done ∨
            ∃ code, (world.outcome (.descriptor file (.truncate length))).2 = .error code) := by
        cases failing : world.chance.fault with
        | some fault => simp [World.outcome, exec, failing, refuse, Effect.none]
        | none =>
            cases length with
            | none => simp [World.outcome, exec, failing, descriptor, refuse, Effect.none]
            | some size =>
                simp only [World.outcome, exec, failing, descriptor]
                split <;> simp [refuse, Effect.none]
      obtain ⟨changes, isReply⟩ := still
      have kept : Beside world (world.applied (world.outcome (.descriptor file (.truncate length))).1).passed :=
        ⟨files_applied world _ changes, rfl, rfl⟩
      dsimp only
      rcases isReply with isDone | ⟨code, refused⟩
      · rw [isDone]
        exact kept
      · rw [refused]
        exact kept

/-- The error is rewritten. -/
theorem kept_runOn {ok : α → World → Prop} {placed : Placed} {syscall : String} {dest : Option Placed} {code : Code α}
    (ends : Ends handle (Kept key ok world) code world) :
    Ends handle (Kept key ok world) (runOn placed syscall dest code) world := by
  apply ends_catch _ ends
  · exact fun done value after kept => kept
  · intro done error after kept
    apply ends_throw
    rw [List.append_nil]
    exact kept

/-- Code that does not fail and calls no open file. -/
def Sound (ok : α → World → Prop) (done : List (World × Act)) (result : Except NodeError α) (after : World) : Prop :=
  (∀ entry ∈ done, Inner entry.2 ∧ Answered entry) ∧ ∃ value, result = .ok value ∧ ok value after

theorem sound_pure {ok : α → World → Prop} {value : α} (holds : ok value world) :
    Ends handle (Sound ok) (pure value : Code α) world := ends_pure ⟨by simp, value, rfl, holds⟩

theorem sound_act {action : Act} {ok : action.Answer → World → Prop} (inner : Inner action)
    (apart : ∀ key act, action ≠ .onFile key act) (holds : ok (handle action world).1 (handle action world).2) :
    Ends handle (Sound ok) (FsBroker.perform action) world := by
  refine ⟨?_, _, rfl, holds⟩
  intro entry member
  rw [List.mem_singleton.mp member]
  exact ⟨inner, apart_answered apart⟩

theorem kept_last {β : Type} {middle : α → World → Prop} {ok : β → World → Prop} {first : Code α} {rest : α → Code β}
    (head : Ends handle (Kept key middle world) first world)
    (tail : ∀ value after, middle value after → Ends handle (Sound ok) (rest value) after) :
    Ends handle (Kept key ok world) (first >>= rest) world := by
  apply ends_bind _ head
  · rintro done value after ⟨inner, holds, answered⟩
    refine ends_mono (tail value after holds) ?_
    rintro more result final ⟨sound, value, rfl, ends⟩
    refine ⟨List.forall_mem_append.mpr ⟨inner, fun entry member => (sound entry member).1⟩, ends, ?_⟩
    exact List.forall_mem_append.mpr ⟨answered, fun entry member => (sound entry member).2⟩
  · exact fun done error after kept => kept

theorem kept_call_truncate (length : Option Int) :
    Ends handle (Kept key (fun _ => Beside world) world) (fhCall "ftruncate" key (.truncate length)) world := by
  apply ends_call
  · intro reply isReply
    exact ⟨by simp [Inner], on_file_truncate world key _, by simpa using call_answered isReply⟩
  · intro code failed
    have left := call_failed failed
    exact ⟨by simp [Inner], .inl ⟨left.1, by simpa using left.2⟩⟩

theorem kept_truncate (placed : Placed) (flags : OpenFlags) (counted : Bool) (st : Stats) :
    Ends handle (Kept key (fun _ => Beside world) world) (truncateOpened key placed flags counted st) world := by
  unfold truncateOpened onlyIf
  refine ends_ite (fun _ => ?_) fun _ => kept_pure ⟨rfl, rfl, rfl⟩
  have truncated : Ends handle (Kept key (fun _ => Beside world) world) (runOn placed "open" none do
      let _ ← fhCall "ftruncate" key (.truncate (some 0))) world :=
    kept_runOn (kept_last (kept_call_truncate _) fun _ _ beside => sound_pure beside)
  refine kept_last truncated fun _ after beside => ?_
  refine ends_ite (fun _ => sound_act trivial (fun _ _ => nofun) ?_) fun _ => sound_pure beside
  exact ⟨beside.files, beside.entries, beside.nextFd⟩

/-- The new entry of the table. -/
def openEntry (key : Nat) (placed : Placed) (flags : OpenFlags) (counted : Bool) : Entry :=
  ⟨key, placed, 0, flags.append, counted⟩

/-- The entry is in the table, under the next number. -/
def Entered (entry : Entry) (world : World) (fd : Nat) (after : World) : Prop :=
  fd = world.nextFd ∧ after.files = world.files ∧ after.entries = world.entries ++ [(world.nextFd, entry)]

theorem kept_finish (placed : Placed) (flags : OpenFlags) (counted : Bool) :
    Ends handle (Kept key (Entered (openEntry key placed flags counted) world) world)
      (finishOpen b key placed flags counted) world := by
  refine kept_bind (steady_verify b placed _) fun _ verified first => ?_
  refine kept_bind steady_stat fun st seen second => ?_
  refine kept_bind (steady_special b placed st) fun _ plain third => ?_
  refine kept_last (kept_truncate placed flags counted st) fun _ after beside => ?_
  have same := first.trans (second.trans third)
  refine sound_act trivial (fun _ _ => nofun) ⟨beside.nextFd.trans same.nextFd, beside.files.trans same.files, ?_⟩
  simp [handle, openEntry, beside.entries, beside.nextFd, same.entries, same.nextFd]

end Opened

/-! The host's part. -/
section Opening

/-- There is no such name on the host. -/
def unnamed (host : Host) (path : Path) : Bool :=
  match lookAt host path false with
  | .ok _ => false
  | .error _ => true

/-- Where a path leads there is a name. -/
theorem found_named {host : Host} {path location : Path} {left : Nat} (found : resolve host.names path = .found location left) :
    unnamed host path = false := by
  cases path using List.reverseRecOn with
  | nil => rfl
  | append_singleton dir name =>
      obtain ⟨real, leads⟩ := HostEffects.realpath_parent (HostEffects.realpath_ok_iff.mpr ⟨left, found⟩)
      rw [List.dropLast_concat] at leads
      obtain ⟨more, walked⟩ := HostEffects.realpath_ok_iff.mp leads
      rw [HostEffects.resolve_snoc, walked, Walk.andThen] at found
      cases opened : isDir host.names real with
      | false => simp [walk_blocked _ opened] at found
      | true =>
          cases present : lookup host.names (real ++ [name]) with
          | none => simp [walk_absent opened present] at found
          | some node =>
              have at_leaf : leaf host.names (dir ++ [name]) = .ok (real ++ [name]) := by
                simp [leaf, walked, opened]
              simp [unnamed, lookAt, HostCalls.place, at_leaf, nodeAt, present]

/-- An open is refused, finds a file or makes one. -/
theorem open_outcome (host : Host) (path : Path) (flags : OpenFlags) (mode : Nat) (chance : Chance) :
    (∃ code, exec host (.openFile path flags mode) chance = refuse code) ∨
      (∃ location node, unnamed host path = false ∧ exec host (.openFile path flags mode) chance =
        ({ Effect.none with touched := [location] }, .ok (.opened (openedAs node location flags)))) ∨
      ∃ location, flags.creat = true ∧ exec host (.openFile path flags mode) chance =
        createOpened host location flags mode := by
  have existing (location : Path) : (∃ code, openExisting host location flags = refuse code) ∨
      ∃ node, openExisting host location flags =
        ({ Effect.none with touched := [location] }, .ok (.opened (openedAs node location flags))) := by
    unfold openExisting
    split
    · exact .inl ⟨_, rfl⟩
    · split_ifs
      · exact .inl ⟨_, rfl⟩
      · exact .inl ⟨_, rfl⟩
      · exact .inr ⟨_, rfl⟩
  cases failing : chance.fault with
  | some fault => exact .inl ⟨fault.code, by simp only [exec, failing]⟩
  | none =>
      simp only [exec, failing]
      unfold HostCalls.openFile
      split
      · next exclusive =>
          split
          · exact .inl ⟨_, rfl⟩
          · split
            · exact .inl ⟨_, rfl⟩
            · exact .inr (.inr ⟨_, (Bool.and_eq_true_iff.mp exclusive).1, rfl⟩)
      · split
        · exact .inl ⟨_, rfl⟩
        · split
          · next location left leads =>
              rcases existing location with refused | ⟨node, found⟩
              · exact .inl refused
              · exact .inr (.inl ⟨location, node, found_named leads, found⟩)
          · split
            · next creating => exact .inr (.inr ⟨_, (Bool.and_eq_true_iff.mp creating).1, rfl⟩)
            · exact .inl ⟨_, rfl⟩
          · exact .inl ⟨_, rfl⟩

/-- Where the open of this entry makes a file. -/
def makes (entry : World × Act) : Option Path :=
  match entry.2 with
  | .openFile path flags mode =>
      match (entry.1.outcome (.openFile path flags mode)).1.changes with
      | [.add location _] => some location
      | _ => none
  | _ => none

theorem inner_unmade {entry : World × Act} (inner : Inner entry.2) : makes entry = none := by
  obtain ⟨world, action⟩ := entry
  cases action with
  | openFile => exact inner.elim
  | _ => rfl

theorem files_added (world : World) (effect : Effect) {location : Path} {node : Node}
    (added : effect.changes = [.add location node]) : (world.applied effect).files = world.files := by
  simp only [World.applied, added, OpenFile.follow, List.foldl_cons, List.foldl_nil]
  conv_rhs => rw [← List.map_id world.files]
  apply List.map_congr_left
  rintro ⟨key, file⟩ _
  obtain ⟨ino, kind, place, readable, writable, append, offset⟩ := file
  cases place <;> rfl

/-- What the host leaves when it has opened a file. -/
structure Opened (world : World) (path : Path) (flags : OpenFlags) (mode : Nat) (opened : World) : Prop where
  answer : world.open path flags mode = (.ok world.nextHandle, opened)
  files : ∃ file, opened.files = world.files ++ [(world.nextHandle, file)] ∧ file.append = flags.append ∧ file.offset = 0
  fds : opened.fds = world.fds
  entries : opened.entries = world.entries
  nextFd : opened.nextFd = world.nextFd
  quota : opened.quota = world.quota
  host : (opened.host = world.host ∧ unnamed world.host path = false ∧
      makes (world, .openFile path flags mode) = none) ∨
    ∃ location, flags.creat = true ∧ opened.host = world.host.apply (create world.host location .file mode) ∧
      makes (world, .openFile path flags mode) = some location

def openedWorld (world : World) (effect : Effect) (file : OpenFile) : World :=
  { (world.applied effect).passed with
    files := (world.applied effect).files ++ [(world.nextHandle, file)]
    nextHandle := world.nextHandle + 1 }

theorem open_opened {world : World} {path : Path} {flags : OpenFlags} {mode : Nat} {effect : Effect} {file : OpenFile}
    (outcome : world.outcome (.openFile path flags mode) = (effect, .ok (.opened file))) :
    world.open path flags mode = (.ok world.nextHandle, openedWorld world effect file) := by
  simp only [World.open, outcome]
  rfl

/-- A file is opened under the next handle, or nothing is done. -/
theorem open_cases (world : World) (path : Path) (flags : OpenFlags) (mode : Nat) :
    (∃ code, world.open path flags mode = (.error code, world.passed) ∧
        makes (world, .openFile path flags mode) = none) ∨
      ∃ opened, Opened world path flags mode opened := by
  have unmade (changes : (world.outcome (.openFile path flags mode)).1.changes = []) :
      makes (world, .openFile path flags mode) = none := by
    simp [makes, changes]
  rcases open_outcome world.host path flags mode world.chance with
    ⟨code, refused⟩ | ⟨location, node, named, found⟩ | ⟨location, creating, made⟩
  · refine .inl ⟨code, ?_, unmade (by simp [World.outcome, refused, refuse, Effect.none])⟩
    simp only [World.open, World.outcome, refused, refuse, applied_none]
  · have outcome : world.outcome (.openFile path flags mode) = _ := found
    refine .inr ⟨openedWorld world _ _, open_opened outcome, ⟨openedAs node location flags, ?_, rfl, rfl⟩, rfl, rfl,
      rfl, rfl, .inl ⟨?_, named, ?_⟩⟩
    · rw [openedWorld, applied_touching]
    · rw [openedWorld, applied_touching]
      rfl
    · exact unmade (by simp [outcome, Effect.none])
  · have outcome : world.outcome (.openFile path flags mode) = createOpened world.host location flags mode := made
    refine .inr ⟨openedWorld world _ _, open_opened outcome,
      ⟨openedAs ⟨world.host.nextIno, .file⟩ location flags, ?_, rfl, rfl⟩, rfl, rfl, rfl, rfl,
      .inr ⟨location, creating, rfl, ?_⟩⟩
    · rw [openedWorld, files_added world _ rfl]
    · simp [makes, outcome, createOpened, create]

end Opening

/-! The whole run. -/
section Runs

variable (b : Broker) (path : PathArg)

/-- The root that the path names, and the path of the host there. -/
def Sited (site : Site) : Prop :=
  ∃ virtual, toVirtualPath b.cwd path = some virtual ∧
    FileNamespace.resolve b.ns virtual = .root site.virtual site.host site.within

/-- The file is asked for at `host`, under enforce in a root. -/
structure Standing (placed : Placed) (host : Path) : Prop where
  host : placed.host = some host
  sited : ∀ site, placed = .rooted site → Sited b path site
  rooted : b.enforce = true → ∃ site, placed = .rooted site

/-- Whether `open` takes an entry of the quota. -/
def takes (placed : Placed) (path : Path) (flags : OpenFlags) (host : Host) : Bool :=
  counts b placed && unnamed host path && flags.creat

/-- Between the two worlds only `count` entries were reserved. -/
structure Reserved (count : Int) (before after : World) : Prop where
  host : after.host = before.host
  files : after.files = before.files
  nextHandle : after.nextHandle = before.nextHandle
  fds : after.fds = before.fds
  entries : after.entries = before.entries
  nextFd : after.nextFd = before.nextFd
  bytes : after.quota.bytes = before.quota.bytes
  names : after.quota.entries = plus before.quota.entries (some count)

/-- The quota has charged no less than nothing. -/
structure Credited (world : World) : Prop where
  bytes : ∀ used, world.quota.bytes = some used → 0 ≤ used
  names : ∀ count, world.quota.entries = some count → 0 ≤ count

variable {world : World}

theorem plus_zero (amount : DiskQuota.Amount Int) : plus amount (some 0) = amount := by
  cases amount <;> simp [plus]

theorem reserved_none (world : World) : Reserved 0 world world :=
  ⟨rfl, rfl, rfl, rfl, rfl, rfl, rfl, (plus_zero _).symm⟩

theorem Same.reserved {before middle after : World} {count : Int} (same : Same before middle)
    (reserved : Reserved count middle after) : Reserved count before after where
  host := reserved.host.trans same.host
  files := reserved.files.trans same.files
  nextHandle := reserved.nextHandle.trans same.nextHandle
  fds := reserved.fds.trans same.fds
  entries := reserved.entries.trans same.entries
  nextFd := reserved.nextFd.trans same.nextFd
  bytes := reserved.bytes.trans same.bytes
  names := reserved.names.trans (by rw [same.names])

theorem Credited.same {after : World} (credited : Credited world) (same : Same world after) : Credited after where
  bytes := fun used charged => credited.bytes used (same.bytes ▸ charged)
  names := fun count charged => credited.names count (same.names ▸ charged)

/-- One entry is reserved, or refused. -/
theorem reserve_entry (world : World) :
    handle (.reserve (some 0) (some 1)) world = (false, world) ∨
      ∃ after, handle (.reserve (some 0) (some 1)) world = (true, after) ∧ Reserved 1 world after := by
  cases accepted : DiskQuota.reserve world.quota (some 0) (some 1) with
  | none => exact .inl (by simp [handle, accepted])
  | some next =>
      refine .inr ⟨{ world with quota := next }, by simp [handle, accepted], rfl, rfl, rfl, rfl, rfl, rfl, ?_, ?_⟩
      all_goals
        simp only [DiskQuota.reserve] at accepted
        split at accepted
        · simp at accepted
        · rw [← Option.some.inj accepted]
          simp [DiskQuota.crossings, plus_zero]

/-- The reserved entry is given back. -/
theorem settle_entry {after : World} (credited : Credited world) (reserved : Reserved 1 world after) :
    Same world (handle (.settle (some 0) (some 1) (some 0) (some 0)) after).2 where
  host := reserved.host
  files := reserved.files
  nextHandle := reserved.nextHandle
  fds := reserved.fds
  entries := reserved.entries
  nextFd := reserved.nextFd
  bytes := by
    simp only [handle, DiskQuota.settle, DiskQuota.crossings, reserved.bytes]
    cases charged : world.quota.bytes with
    | none => rfl
    | some used =>
        have credit := credited.bytes used charged
        simp [DiskQuota.minus, plus, DiskQuota.atLeastZero, credit]
  names := by
    simp only [handle, DiskQuota.settle, DiskQuota.crossings, reserved.names]
    cases charged : world.quota.entries with
    | none => rfl
    | some count =>
        have credit := credited.names count charged
        simp [DiskQuota.minus, plus, DiskQuota.atLeastZero, credit]

/-- The file is not opened, and nothing has changed. -/
def Unopened (world : World) (done : List (World × Act)) (after : World) : Prop :=
  (Credited world → Same world after) ∧ ∀ entry ∈ done, Answered entry ∧ makes entry = none

/-- The host opens the file in the world `opening`, and leaves the world `opened`. -/
structure Reached (world : World) (done : List (World × Act)) (placed : Placed) (host : Path) (flags : OpenFlags)
    (mode : Nat) (opening opened : World) (rest : List (World × Act)) : Prop where
  standing : Standing b path placed host
  reserved : Reserved (if takes b placed host flags world.host then 1 else 0) world opening
  opens : Opened opening host { flags with trunc := false } mode opened
  before : ∃ first, done = first ++ (opening, .openFile host { flags with trunc := false } mode) :: rest ∧
    ∀ entry ∈ first, Answered entry ∧ makes entry = none

/-- What `open` has done by the time it ends. -/
def Attempt (world : World) (done : List (World × Act)) (result : Except NodeError Nat) (after : World) : Prop :=
  ((∃ error, result = .error error) ∧ Unopened world done after) ∨
    ∃ placed host flags mode opening opened rest, Reached b path world done placed host flags mode opening opened rest ∧
      Kept opening.nextHandle (Entered (openEntry opening.nextHandle placed flags (counts b placed)) opened) opened rest
        result after

variable {b path}

/-- Looking around before leaves the attempt as it is. -/
theorem attempt_after {middle after : World} {first more : List (World × Act)} {result : Except NodeError Nat}
    (same : Same world middle) (plain : ∀ entry ∈ first, Answered entry ∧ makes entry = none)
    (attempt : Attempt b path middle more result after) : Attempt b path world (first ++ more) result after := by
  rcases attempt with ⟨failed, kept, unopened⟩ | ⟨placed, host, flags, mode, opening, opened, rest, reached, ended⟩
  · exact .inl ⟨failed, fun credited => same.trans (kept (credited.same same)), List.forall_mem_append.mpr ⟨plain, unopened⟩⟩
  · obtain ⟨standing, reserved, opens, early, split, plainEarly⟩ := reached
    refine .inr ⟨placed, host, flags, mode, opening, opened, rest, ⟨standing, ?_, opens, first ++ early, ?_, ?_⟩, ended⟩
    · rw [← same.host]
      exact same.reserved reserved
    · rw [split, List.append_assoc]
    · exact List.forall_mem_append.mpr ⟨plain, plainEarly⟩

theorem looks_plain {first : List (World × Act)} (looks : ∀ entry ∈ first, Looks entry.2) :
    ∀ entry ∈ first, Answered entry ∧ makes entry = none :=
  fun entry member => ⟨looks_answered (looks entry member), inner_unmade (asks_inner (asks_of_looks _ (looks entry member)))⟩

theorem attempt_bind {α : Type} {first : Code α} {rest : α → Code Nat} (ok : α → World → Prop) (only : Only Looks first)
    (spec : first.Spec handle (fun _ _ => True) ok (fun _ _ => True) world)
    (tail : ∀ value after, Same world after → ok value after → Ends handle (Attempt b path after) (rest value) after) :
    Ends handle (Attempt b path world) (first >>= rest) world := by
  have looked : Ends handle (fun done _ after => (∀ entry ∈ done, Looks entry.2) ∧ Same world after) first world :=
    ends_only same_refl Same.trans (fun world action looks => asks_same world action (asks_of_looks action looks)) only
  apply ends_bind _ (ends_and looked (ends_spec spec))
  · rintro done value after ⟨⟨looks, same⟩, -, holds, -⟩
    exact ends_mono (tail value after same (holds value rfl)) fun _ _ _ => attempt_after same (looks_plain looks)
  · rintro done error after ⟨⟨looks, same⟩, -⟩
    exact .inl ⟨⟨error, rfl⟩, fun _ => same, looks_plain looks⟩

theorem ends_fsOpen {host : Path} {flags : OpenFlags} {mode : Nat}
    {claim : List (World × Act) → Except NodeError Nat → World → Prop}
    (goes : ∀ key, (world.open host flags mode).1 = .ok key →
      claim [(world, .openFile host flags mode)] (.ok key) (world.open host flags mode).2)
    (fails : ∀ code, (world.open host flags mode).1 = .error code →
      claim [(world, .openFile host flags mode)] (.error (hostError "open" code)) (world.open host flags mode).2) :
    Ends handle claim (fsOpen host flags mode) world := by
  show claim ((world, .openFile host flags mode) :: (raised "open" (world.open host flags mode).1).trace handle _)
    ((raised "open" (world.open host flags mode).1).run handle (world.open host flags mode).2).1
    ((raised "open" (world.open host flags mode).1).run handle (world.open host flags mode).2).2
  cases answer : (world.open host flags mode).1 with
  | ok key => exact goes key answer
  | error code => exact fails code answer

/-- A refused open settles the entry that was taken. -/
theorem attempt_refused {host : Path} {flags : OpenFlags} {mode : Nat} {opening : World} {taken : Bool}
    {error : NodeError} (reserved : Reserved (if taken then 1 else 0) world opening)
    (unmade : makes (opening, .openFile host flags mode) = none) :
    Ends handle (fun more result final =>
        (∃ error, result = .error error) ∧ Unopened world ([(opening, .openFile host flags mode)] ++ more) final)
      (do
        onlyIf taken (settle (some 0) (some 1) (some 0) (some 0))
        throw error : Code Nat) opening.passed := by
  have apart : Answered (opening, .openFile host flags mode) := rfl
  cases taken with
  | false =>
      have same : Same world opening.passed :=
        ⟨reserved.host, reserved.files, reserved.nextHandle, reserved.fds, reserved.entries, reserved.nextFd,
          reserved.bytes, reserved.names.trans (plus_zero _)⟩
      refine ⟨⟨error, rfl⟩, fun _ => same, List.forall_mem_cons.mpr ⟨⟨apart, unmade⟩, ?_⟩⟩
      exact fun _ member => absurd member List.not_mem_nil
  | true =>
      have passed : Reserved 1 world opening.passed := { reserved with }
      refine ⟨⟨error, rfl⟩, fun credited => settle_entry credited passed, ?_⟩
      have settles : Answered (opening.passed, .settle (some 0) (some 1) (some 0) (some 0)) :=
        rfl
      refine List.forall_mem_cons.mpr ⟨⟨apart, unmade⟩, List.forall_mem_cons.mpr ⟨⟨settles, inner_unmade trivial⟩, ?_⟩⟩
      exact fun _ member => absurd member List.not_mem_nil

/-- The host opens the file, or what was taken is given back. -/
theorem attempt_host {placed : Placed} {host : Path}
    (standing : Standing b path placed host) {flags : OpenFlags} {mode : Nat} {opening : World} {taken : Bool} (isTaken : taken = takes b placed host flags world.host)
    (reserved : Reserved (if taken then 1 else 0) world opening) :
    Ends handle (Attempt b path world) (do
      let key ← tryCatch (fsOpen host { flags with trunc := false } mode) fun e => do
        onlyIf taken (settle (some 0) (some 1) (some 0) (some 0))
        throw (rewrite e "open" placed none)
      finishOpen b key placed flags (counts b placed) : Code Nat) opening := by
  let asked := { flags with trunc := false }
  apply ends_bind fun done result after => ((∃ error, result = .error error) ∧ Unopened world done after) ∨
    (result = .ok opening.nextHandle ∧ done = [(opening, .openFile host asked mode)] ∧
      Opened opening host asked mode after)
  · rcases open_cases opening host asked mode with ⟨code, refused, unmade⟩ | ⟨opened, opens⟩
    · apply ends_catch fun done result after => (∃ error, result = .error error) ∧
        done = [(opening, .openFile host asked mode)] ∧ after = opening.passed
      · apply ends_fsOpen
        · intro key isKey
          rw [refused] at isKey
          cases isKey
        · exact fun code _ => ⟨⟨_, rfl⟩, rfl, by rw [refused]⟩
      · rintro done value after ⟨⟨error, differs⟩, -⟩
        cases differs
      · rintro done error after ⟨-, rfl, rfl⟩
        exact ends_mono (attempt_refused reserved unmade) fun _ _ _ => .inl
    · apply ends_catch fun done result after => result = .ok opening.nextHandle ∧
        done = [(opening, .openFile host asked mode)] ∧ Opened opening host asked mode after
      · apply ends_fsOpen
        · intro key isKey
          rw [opens.answer] at isKey ⊢
          cases isKey
          exact ⟨rfl, rfl, opens⟩
        · intro code differs
          rw [opens.answer] at differs
          cases differs
      · exact fun done value after ends => .inr ends
      · rintro done error after ⟨differs, -⟩
        cases differs
  · rintro done key after (⟨⟨error, differs⟩, -⟩ | ⟨isKey, rfl, opens⟩)
    · cases differs
    · cases isKey
      refine ends_mono (kept_finish b placed flags _) ?_
      intro more result final kept
      refine .inr ⟨placed, host, flags, mode, opening, after, more, ⟨standing, isTaken ▸ reserved, opens, [], rfl, ?_⟩, kept⟩
      exact fun _ member => absurd member List.not_mem_nil
  · rintro done error after (unopened | ⟨differs, -⟩)
    · exact .inl unopened
    · cases differs

theorem ends_reserve {syscall : String} {placed : Placed} :
    Ends handle (fun done result after => done = [(world, Act.reserve (some 0) (some 1))] ∧
      ((∃ error, result = .error error) ∧ after = world ∨ result = .ok () ∧ Reserved 1 world after))
      (reserve (some 0) (some 1) syscall placed) world := by
  have step : reserve (some 0) (some 1) syscall placed = .act (.reserve (some 0) (some 1)) fun accepted =>
    refuseIf (!accepted) (nodeError .ENOSPC syscall placed.virtual) := rfl
  rw [Ends, step]
  simp only [Prog.trace, Prog.run]
  rcases reserve_entry world with refused | ⟨after, accepted, reserved⟩
  · rw [refused]
    exact ⟨rfl, .inl ⟨⟨_, rfl⟩, rfl⟩⟩
  · rw [accepted]
    exact ⟨rfl, .inr ⟨rfl, reserved⟩⟩

/-- A new name takes an entry first, and nothing has changed when there is none left. -/
theorem attempt_taking {placed : Placed} {host : Path}
    (standing : Standing b path placed host) {flags : OpenFlags} {mode : Nat} {taken : Bool} (isTaken : taken = takes b placed host flags world.host) :
    Ends handle (Attempt b path world) (do
      onlyIf taken (reserve (some 0) (some 1) "open" placed)
      let key ← tryCatch (fsOpen host { flags with trunc := false } mode) fun e => do
        onlyIf taken (settle (some 0) (some 1) (some 0) (some 0))
        throw (rewrite e "open" placed none)
      finishOpen b key placed flags (counts b placed) : Code Nat) world := by
  cases taken with
  | false => exact attempt_host standing isTaken (reserved_none world)
  | true =>
      have apart : Answered (world, .reserve (some 0) (some 1)) := rfl
      have plain : ∀ entry ∈ [(world, Act.reserve (some 0) (some 1))],
          Answered entry ∧ makes entry = none := by
        intro entry member
        rw [List.mem_singleton.mp member]
        exact ⟨apart, inner_unmade trivial⟩
      apply ends_bind _ ends_reserve
      · rintro done value after ⟨rfl, ⟨⟨error, differs⟩, -⟩ | ⟨-, reserved⟩⟩
        · cases differs
        · refine ends_mono (attempt_host standing isTaken reserved) fun more result final => ?_
          exact attempt_after (same_refl world) plain
      · rintro done error after ⟨rfl, ⟨-, rfl⟩ | ⟨differs, -⟩⟩
        · exact .inl ⟨⟨error, rfl⟩, fun _ => same_refl _, plain⟩
        · cases differs

theorem lstat_if_unnamed (counted : Bool) (host : Path) :
    (lstatIf counted host).Spec handle (fun _ _ => True)
      (fun before after => counted = true → before.isNone = unnamed after.host host) (fun _ _ => True) world := by
  cases counted with
  | false => exact nofun
  | true =>
      simp only [lstatIf, if_true, lstatOrNull, fsLstat, or_null_spec, Program.spec_bind, try_lstat_spec, true_and]
      cases looked : lookAt world.host host false with
      | error code => simp [unnamed, World.passed, looked]
      | ok st => simp [unnamed, World.passed, looked]

/-- Whatever `open` ends with, it has come to this. -/
theorem attempt_open (flagsArg : FlagsArg) (mode : Nat) :
    Ends handle (Attempt b path world) (FsBroker.openFile b path flagsArg mode) world := by
  unfold FsBroker.openFile
  refine attempt_bind (fun _ _ => True) ?_ ?_ fun flags started first _ => ?_
  · unfold openFlags
    split <;> trivial
  · unfold openFlags
    split <;> trivial
  refine attempt_bind (fun placed _ => Stands b started path (if writes flags then .w else .r) true placed)
    (DescriptorDuty.looks_place b _ _ _ _) ?_ fun placed sited second stands => ?_
  · exact place_rule (List.Subset.refl _) (fun _ _ _ => trivial) (fun _ _ _ => trivial) fun _ _ _ stands => stands
  have standing (host : Path) (isHost : placed.host = some host) : Standing b path placed host := by
    cases stands with
    | above virtual v kids named resolved reading => cases isHost
    | free virtual v named unrooted same unguarded =>
        exact ⟨isHost, fun _ => nofun, fun guarded => absurd guarded (by simp [unguarded])⟩
    | rooted virtual site named resolved cleared writable =>
        refine ⟨isHost, fun other same => ?_, fun _ => ⟨site, rfl⟩⟩
        cases same
        exact ⟨virtual, named, resolved⟩
  split
  · exact .inl ⟨⟨_, rfl⟩, fun _ => same_refl _, fun _ member => absurd member List.not_mem_nil⟩
  next host isHost =>
  refine attempt_bind (fun _ _ => True) (DescriptorDuty.only_act trivial) ⟨trivial, trivial⟩ fun size counted third _ => ?_
  refine attempt_bind (fun _ _ => True) (DescriptorDuty.only_refuseIf _ _) ?_ fun _ passed fourth _ => ?_
  · unfold refuseIf
    split <;> trivial
  refine attempt_bind (fun before after => counts b placed = true → before.isNone = unnamed after.host host) ?_
    (lstat_if_unnamed _ _) fun before looked fifth isBefore => ?_
  · exact only_ite (DescriptorDuty.looks_lstatOrNull _) (only_pure _)
  apply attempt_taking (standing host isHost)
  cases isCounted : counts b placed with
  | false => simp [takes, isCounted]
  | true => simp [takes, isCounted, isBefore isCounted]

/-- The same of the call that a module makes. -/
def Attempted (b : Broker) (path : PathArg) (world : World) (done : List (World × Act)) (result : Except NodeError Value)
    (after : World) : Prop :=
  (∃ fd, result = .ok (.fd fd) ∧ Attempt b path world done (.ok fd) after) ∨
    ∃ error, result = .error error ∧ Attempt b path world done (.error error) after

theorem attempted_after {middle after : World} {first more : List (World × Act)} {result : Except NodeError Value}
    (same : Same world middle) (plain : ∀ entry ∈ first, Answered entry ∧ makes entry = none)
    (attempt : Attempted b path middle more result after) : Attempted b path world (first ++ more) result after := by
  rcases attempt with ⟨fd, isOk, attempt⟩ | ⟨error, failed, attempt⟩
  · exact .inl ⟨fd, isOk, attempt_after same plain attempt⟩
  · exact .inr ⟨error, failed, attempt_after same plain attempt⟩

theorem attempted_open (flags : FlagsArg) (mode : Nat) :
    Ends handle (Attempted b path world) (openOp b path flags mode) world := by
  apply ends_bind _ (attempt_open flags mode)
  · intro done fd after attempt
    apply ends_pure
    rw [List.append_nil]
    exact .inl ⟨fd, rfl, attempt⟩
  · exact fun done error after attempt => .inr ⟨error, rfl, attempt⟩

theorem attempted_throw (error : NodeError) : Ends handle (Attempted b path world) (throw error : Code Value) world :=
  .inr ⟨error, rfl, .inl ⟨⟨error, rfl⟩, fun _ => same_refl world, fun _ member => absurd member List.not_mem_nil⟩⟩

/-- One action that changes nothing, before the rest. -/
theorem attempted_step (action : Act) {rest : action.Answer → Code Value} (asks : Asks action)
    (apart : ∀ key act, action ≠ .onFile key act)
    (tail : Ends handle (Attempted b path (handle action world).2) (rest (handle action world).1) (handle action world).2) :
    Ends handle (Attempted b path world) (FsBroker.perform action >>= rest) world := by
  have plain : ∀ entry ∈ [(world, action)], Answered entry ∧ makes entry = none := by
    intro entry member
    rw [List.mem_singleton.mp member]
    exact ⟨apart_answered apart, inner_unmade (asks_inner asks)⟩
  exact attempted_after (asks_same world action asks) plain tail

theorem attempted_handle (flags : FlagsArg) (mode : Nat) :
    Ends handle (Attempted b path world) (handleOne b (.open path flags mode)) world := by
  refine attempted_step .isClosed trivial (fun _ _ => nofun) ?_
  dsimp only [handle]
  cases world.closed with
  | true => exact attempted_throw _
  | false =>
      cases lockOf (.open path flags mode) with
      | none => exact attempted_throw _
      | some lock =>
          cases lock with
          | exclusive =>
              exact attempted_step .clearCache trivial (fun _ _ => nofun) (attempted_open flags mode)
          | none => exact attempted_open flags mode
          | shared => exact attempted_open flags mode

theorem lookup_new {α : Type} {table : List (Nat × α)} {key : Nat} (value : α) (fresh : ∀ entry ∈ table, entry.1 < key) :
    (table ++ [(key, value)]).lookup key = some value := by
  have none : table.lookup key = none := by
    rw [List.lookup_eq_none_iff]
    intro entry member
    have below := fresh entry member
    simpa using Nat.ne_of_gt below
  simp [List.lookup_append, none]

/-- The descriptor of a file that was opened, at its start. -/
theorem opened_entry {fd : Nat} {opened : World} {flags : FlagsArg} {mode : Nat} (numbered : (view world).Numbered)
    (ran : (handleOne b (.open path flags mode)).run handle world = (.ok (.fd fd), opened)) :
    ∃ e file, opened.entries.lookup fd = some e ∧ opened.file e.handle = some file ∧ e.pos = 0 ∧ file.offset = 0 ∧
      e.append = file.append ∧ (e.counts = true → b.counting = true) := by
  have attempted : Ends handle (Attempted b path world) (handleOne b (.open path flags mode)) world :=
    attempted_handle flags mode
  rw [Ends, ran] at attempted
  rcases attempted with ⟨fd', same, attempt⟩ | ⟨error, differs, -⟩
  rotate_left
  · cases differs
  cases same
  rcases attempt with ⟨⟨error, differs⟩, -⟩ | ⟨placed, host, asked, mode, opening, found, rest, reached, -, entered, -⟩
  · cases differs
  obtain ⟨isFd, files, entries⟩ := entered
  obtain ⟨file, newFiles, append, offset⟩ := reached.opens.files
  have old : found.entries = world.entries := reached.opens.entries.trans reached.reserved.entries
  have next : found.nextFd = world.nextFd := reached.opens.nextFd.trans reached.reserved.nextFd
  refine ⟨openEntry opening.nextHandle placed asked (counts b placed), file, ?_, ?_, rfl, offset, append.symm, ?_⟩
  · rw [isFd, entries, old, next]
    apply lookup_new
    intro entry member
    have owner : (entry.1, entry.2.handle) ∈ (view world).owners := List.mem_map.mpr ⟨entry, member, rfl⟩
    exact numbered.descriptors _ owner
  · rw [World.file, files, newFiles, reached.reserved.files, openEntry]
    rw [reached.reserved.nextHandle]
    apply lookup_new
    exact fun entry member => numbered.handles _ (List.mem_map_of_mem member)
  · intro counted
    exact (Bool.and_eq_true_iff.mp counted).1

end Runs

end Countinghouse.OpenFiles
