import Countinghouse.BridgeReplies

/-!
The worker's side of the file bridge in every state that it can come to: where the sync loop
stands with its own reply and with the counter, and which promises wait for one.
-/

namespace Countinghouse.FileBridge

/-! Where the worker's loop stands. -/
section Calls

variable {Result : Type} {settings : Settings Result} {s after : State Result} {place : Nat} {t : Task Result}

/-- The call that the worker is in. -/
def Mode.request : Mode → Option Request
  | .idle => none
  | .looping request | .draining request _ | .deciding request _ | .asleep request => some request

/-- The counter was read when these were counted; no more than one call that has its reply was left out. -/
structure Snapshot (s : State Result) (seen : Nat) (before : List Nat) : Prop where
  earlier : before <+: s.counted
  seen : seen = before.length % 2 ^ 32
  last : ∃ last, ∀ id m, (id, .reply m) ∈ s.ended → id ∉ before → id = last

def Seen (s : State Result) : Prop :=
  match s.mode with
  | .draining _ seen => ∃ before, Snapshot s seen before
  | .deciding request seen => ∃ before, Snapshot s seen before ∧ request.id ∉ before
  | _ => True

theorem Seen.kept (seen : Seen s) (mode : after.mode = s.mode) (counted : s.counted <+: after.counted)
    (ended : after.ended = s.ended) : Seen after := by
  have snapshots : ∀ seen before, Snapshot s seen before → Snapshot after seen before := fun seen before snapshot =>
    ⟨snapshot.earlier.trans counted, snapshot.seen, ended ▸ snapshot.last⟩
  unfold Seen at seen ⊢
  rw [mode]
  split at seen
  · obtain ⟨before, snapshot⟩ := seen
    exact ⟨before, snapshots _ _ snapshot⟩
  · obtain ⟨before, snapshot, own⟩ := seen
    exact ⟨before, snapshots _ _ snapshot, own⟩
  · trivial

structure Calls (s : State Result) : Prop where
  current : ∀ request, s.mode.request = some request → request ∈ s.sent .sync ∧
    (∀ other ∈ s.sent .sync, other.id ≤ request.id) ∧ request.id ∉ s.ended.map Prod.fst
  past : ∀ request ∈ s.sent .sync, s.mode.request = some request ∨ (∃ m, (request.id, .reply m) ∈ s.ended) ∨
    (request.id, .gaveUp) ∈ s.ended
  once : (s.ended.map Prod.fst).Nodup
  bound : ∀ entry ∈ s.ended, entry.1 ≤ s.seq
  own : ∀ id m, (id, .reply m) ∈ s.ended → m.id = id ∧ m ∈ s.replies .sync
  queue : (s.outbox .sync).Sublist (s.replies .sync)
  expected : ∀ m ∈ s.outbox .sync, (∃ request, s.mode.request = some request ∧ request.id = m.id) ∨
    (m.id, .gaveUp) ∈ s.ended
  present : ∀ request, s.mode.request = some request → ∀ m ∈ s.replies .sync, m.id = request.id → m ∈ s.outbox .sync
  lastly : ∀ id m, (id, .reply m) ∈ s.ended → id ∉ s.counted → ∀ t ∈ s.tasks, t.port = .sync → t.request.id ≤ id
  seen : Seen s

theorem start_calls : Calls (start Result) := by
  constructor <;> simp [start, Mode.request, Seen]

theorem Calls.frame (calls : Calls s) (mode : after.mode = s.mode) (sent : after.sent .sync = s.sent .sync)
    (ended : after.ended = s.ended) (replies : after.replies .sync = s.replies .sync)
    (outbox : after.outbox .sync = s.outbox .sync) (counted : after.counted = s.counted) (seq : s.seq ≤ after.seq)
    (tasks : ∀ t ∈ after.tasks, t.port = .sync → ∃ old ∈ s.tasks, old.port = .sync ∧ old.request = t.request) :
    Calls after where
  current := by simpa only [mode, sent, ended] using calls.current
  past := by simpa only [mode, sent, ended] using calls.past
  once := by simpa only [ended] using calls.once
  bound := by
    intro entry member
    exact Nat.le_trans (calls.bound entry (ended ▸ member)) seq
  own := by simpa only [ended, replies] using calls.own
  queue := by simpa only [outbox, replies] using calls.queue
  expected := by simpa only [outbox, mode, ended] using calls.expected
  present := by simpa only [outbox, mode, replies] using calls.present
  lastly := by
    intro id m replied uncounted t member isSync
    obtain ⟨old, isOld, isSync', same⟩ := tasks t member isSync
    rw [← same]
    exact calls.lastly id m (ended ▸ replied) (counted ▸ uncounted) old isOld isSync'
  seen := calls.seen.kept mode (counted ▸ List.prefix_rfl) ended

/-- The loop goes on with the same call. -/
theorem Calls.turn (calls : Calls s) (mode : Mode) (same : mode.request = s.mode.request)
    (seen : Seen { s with mode := mode }) : Calls { s with mode := mode } :=
  { calls with
    current := by simpa only [same] using calls.current
    past := by simpa only [same] using calls.past
    expected := by simpa only [same] using calls.expected
    present := by simpa only [same] using calls.present
    seen := seen }

theorem Calls.load (books : Books s) (calls : Calls s) (went : s.load = some after) : Calls after := by
  unfold State.load at went
  split at went
  · rename_i request looping
    cases went
    refine calls.turn _ (by simp [looping, Mode.request]) ⟨s.counted, List.prefix_rfl, books.counter, ?_⟩
    by_cases left : ∃ id m, (id, .reply m) ∈ s.ended ∧ id ∉ s.counted
    · obtain ⟨last, m, isLast, uncounted⟩ := left
      refine ⟨last, fun id m' isId uncounted' => ?_⟩
      -- each was the last of the taken calls when it got its reply
      obtain ⟨t, member, isSync, -, isT⟩ := books.reply_task (calls.own id m' isId).2
      obtain ⟨t', member', isSync', -, isT'⟩ := books.reply_task (calls.own last m isLast).2
      have below := calls.lastly last m isLast uncounted t member isSync
      have above := calls.lastly id m' isId uncounted' t' member' isSync'
      rw [isT, (calls.own id m' isId).1] at below
      rw [isT', (calls.own last m isLast).1] at above
      omega
    · exact ⟨0, fun id m isId uncounted => absurd ⟨id, m, isId, uncounted⟩ left⟩
  · cases went

theorem ended_once {entries : List (Nat × Ending Result)} (once : (entries.map Prod.fst).Nodup) {id : Nat}
    (fresh : id ∉ entries.map Prod.fst) (ending : Ending Result) :
    ((entries ++ [(id, ending)]).map Prod.fst).Nodup := by
  simpa [List.concat_eq_append] using List.Nodup.concat fresh once

theorem Calls.sync (books : Books s) (calls : Calls s) {op : String} {clones : Bool}
    (went : s.sync op clones = some after) : Calls after := by
  unfold State.sync at went
  split at went
  · cases went
  · rename_i idle
    replace idle : s.mode = .idle := by simpa using idle
    have fresh : s.seq + 1 ∉ s.ended.map Prod.fst := by
      intro member
      obtain ⟨entry, isEntry, same⟩ := List.mem_map.mp member
      have bound := calls.bound entry isEntry
      omega
    split at went
    · cases went
      have none : s.mode.request = none := by rw [idle]; rfl
      exact {
        current := by
          rintro request isRequest
          cases isRequest
          refine ⟨by simp [State.post], ?_, fresh⟩
          intro other member
          simp only [State.post, Function.update_self, List.mem_append, List.mem_singleton] at member
          rcases member with old | rfl
          · exact Nat.le_succ_of_le (books.bound .sync other old)
          · exact Nat.le_refl _
        past := by
          intro request member
          simp only [State.post, Function.update_self, List.mem_append, List.mem_singleton] at member
          rcases member with old | rfl
          · rcases calls.past request old with current | rest
            · simp [none] at current
            · exact Or.inr rest
          · exact Or.inl rfl
        once := calls.once
        bound := fun entry member => Nat.le_succ_of_le (calls.bound entry member)
        own := calls.own
        queue := calls.queue
        expected := by
          intro m member
          rcases calls.expected m member with ⟨request, current, -⟩ | gaveUp
          · simp [none] at current
          · exact Or.inr gaveUp
        present := by
          rintro request isRequest m member same
          cases isRequest
          -- nothing with a number that high has been sent
          obtain ⟨t, isTask, -, -, isId⟩ := books.reply_task member
          have bound := books.bound _ _ (books.task_sent isTask)
          simp only [same] at isId
          omega
        lastly := calls.lastly
        seen := trivial }
    · cases went
      exact { calls with
        current := by simp [idle, Mode.request]
        past := by
          intro request member
          rcases calls.past request member with current | ⟨m, replied⟩ | gaveUp
          · exact Or.inl current
          · exact Or.inr (Or.inl ⟨m, List.mem_append_left _ replied⟩)
          · exact Or.inr (Or.inr (List.mem_append_left _ gaveUp))
        once := ended_once calls.once fresh _
        bound := by
          intro entry member
          rcases List.mem_append.mp member with old | isNew
          · exact Nat.le_succ_of_le (calls.bound entry old)
          · exact Nat.le_of_eq (congrArg Prod.fst (List.mem_singleton.mp isNew))
        own := by
          intro id m member
          rcases List.mem_append.mp member with old | isNew
          · exact calls.own id m old
          · simp at isNew
        expected := by
          intro m member
          rcases calls.expected m member with current | gaveUp
          · exact Or.inl current
          · exact Or.inr (List.mem_append_left _ gaveUp)
        lastly := by
          intro id m member
          rcases List.mem_append.mp member with old | isNew
          · exact calls.lastly id m old
          · simp at isNew
        seen := by simp [Seen, idle] }

/-- The call is over. -/
theorem Calls.ends (books : Books s) (calls : Calls s) {request : Request} (current : s.mode.request = some request)
    (ending : Ending Result) (posted : ending ≠ .unposted) {rest : List (Reply Result)}
    (outbox : rest.Sublist (s.outbox .sync))
    (expected : ∀ m ∈ rest, m.id = request.id → ending = .gaveUp)
    (own : ∀ m, ending = .reply m → m.id = request.id ∧ m ∈ s.replies .sync) :
    Calls { s with
      outbox := Function.update s.outbox .sync rest
      mode := .idle
      ended := s.ended ++ [(request.id, ending)] } where
  current := by simp [Mode.request]
  past := by
    intro other member
    rcases calls.past other member with same | ⟨m, replied⟩ | gaveUp
    · rw [current] at same
      cases same
      cases ending with
      | reply m => exact Or.inr (Or.inl ⟨m, by simp⟩)
      | unposted => exact absurd rfl posted
      | gaveUp => exact Or.inr (Or.inr (by simp))
    · exact Or.inr (Or.inl ⟨m, List.mem_append_left _ replied⟩)
    · exact Or.inr (Or.inr (List.mem_append_left _ gaveUp))
  once := ended_once calls.once (calls.current request current).2.2 ending
  bound := by
    intro entry member
    rcases List.mem_append.mp member with old | isNew
    · exact calls.bound entry old
    · rw [List.mem_singleton.mp isNew]
      exact books.bound _ _ (calls.current request current).1
  own := by
    intro id m member
    rcases List.mem_append.mp member with old | isNew
    · exact calls.own id m old
    · cases List.mem_singleton.mp isNew
      exact own m rfl
  queue := by
    simp only [Function.update_self]
    exact outbox.trans calls.queue
  expected := by
    intro m member
    simp only [Function.update_self] at member
    rcases calls.expected m (outbox.subset member) with ⟨other, same, isId⟩ | gaveUp
    · rw [current] at same
      cases same
      rw [← isId, expected m member isId.symm]
      exact Or.inr (by simp)
    · exact Or.inr (List.mem_append_left _ gaveUp)
  present := by simp [Mode.request]
  lastly := by
    intro id m member uncounted t isTask isSync
    rcases List.mem_append.mp member with old | isNew
    · exact calls.lastly id m old uncounted t isTask isSync
    · cases List.mem_singleton.mp isNew
      exact (calls.current request current).2.1 _ (isSync ▸ books.task_sent isTask)
  seen := trivial

theorem Calls.receive (books : Books s) (calls : Calls s) (went : s.receive = some after) : Calls after := by
  unfold State.receive at went
  split at went
  · rename_i request seen draining
    have current : s.mode.request = some request := by rw [draining]; rfl
    split at went
    · rename_i empty
      cases went
      obtain ⟨before, snapshot⟩ : ∃ before, Snapshot s seen before := by
        have seen := calls.seen
        rwa [Seen, draining] at seen
      refine calls.turn _ current.symm ⟨before,
        ⟨snapshot.earlier, snapshot.seen, snapshot.last⟩, fun counted => ?_⟩
      -- a counted reply has been posted, and the port is empty
      obtain ⟨t, member, counts, isId⟩ := mem_counted.mp (books.counted.mem_iff.mp (snapshot.earlier.subset counted))
      have isSync : t.port = .sync := by
        simp only [Task.counts, Bool.and_eq_true, decide_eq_true_eq] at counts
        exact counts.1
      have answered : t.answered = true := by
        simp only [Task.counts, Bool.and_eq_true] at counts
        unfold Task.answered
        split <;> simp_all
      obtain ⟨m, there, same⟩ := books.task_reply member answered
      have waits := calls.present request current m (isSync ▸ there) (same.trans isId)
      simp [empty] at waits
    · rename_i m rest queue
      have sub : rest.Sublist (s.outbox .sync) := queue ▸ List.sublist_cons_self ..
      have once : m.id ∉ rest.map Reply.id := by
        have nodup := (books.replies_nodup .sync).sublist (calls.queue.map Reply.id)
        rw [queue] at nodup
        exact (List.nodup_cons.mp nodup).1
      dsimp only at went
      split at went
      · rename_i differs
        cases went
        exact { calls with
          queue := by
            simp only [Function.update_self]
            exact sub.trans calls.queue
          expected := by
            simp only [Function.update_self]
            exact fun other member => calls.expected other (sub.subset member)
          present := by
            intro request' isCurrent other there isId
            simp only [Function.update_self]
            have waits := calls.present request' isCurrent other there isId
            rw [queue] at waits
            rcases List.mem_cons.mp waits with rfl | later
            · have same : request = request' := Option.some.inj (current.symm.trans isCurrent)
              exact absurd (same ▸ isId) differs
            · exact later
          seen := calls.seen.kept rfl List.prefix_rfl rfl }
      · rename_i same
        replace same : m.id = request.id := by simpa using same
        cases went
        refine calls.ends books current (.reply m) (by simp) sub ?_ ?_
        · intro other member sameId
          exact absurd (List.mem_map.mpr ⟨other, member, sameId.trans same.symm⟩) once
        · rintro _ ⟨⟩
          exact ⟨same, calls.queue.subset (queue ▸ List.mem_cons_self ..)⟩
  · cases went

theorem Calls.giveUp (books : Books s) (calls : Calls s) (went : s.giveUp = some after) : Calls after := by
  unfold State.giveUp at went
  split at went
  · rename_i request seen deciding
    have current : s.mode.request = some request := by rw [deciding]; rfl
    cases went
    have ends := calls.ends books current .gaveUp (by simp) (List.Sublist.refl _) (fun _ _ _ => rfl) (by simp)
    rwa [Function.update_eq_self] at ends
  · cases went

theorem Calls.wait (calls : Calls s) (went : s.wait = some after) : Calls after := by
  unfold State.wait at went
  split at went
  · rename_i request seen deciding
    cases went
    split
    · exact calls.turn _ (by simp [deciding, Mode.request]) trivial
    · exact calls.turn _ (by simp [deciding, Mode.request]) trivial
  · cases went

theorem Calls.expire (calls : Calls s) (went : s.expire = some after) : Calls after := by
  unfold State.expire at went
  split at went
  · rename_i request asleep
    cases went
    exact calls.turn _ (by simp [asleep, Mode.request]) trivial
  · cases went

theorem Calls.async (calls : Calls s) {op : String} {clones : Bool} (went : s.async op clones = some after) :
    Calls after := by
  unfold State.async at went
  split at went
  · cases went
  · dsimp only at went
    have same : ∀ t ∈ s.tasks, t.port = .sync → ∃ old ∈ s.tasks, old.port = .sync ∧ old.request = t.request :=
      fun t member isSync => ⟨t, member, isSync, rfl⟩
    split at went
    · cases went
      exact calls.frame rfl (by simp [State.post]) rfl rfl rfl rfl (Nat.le_succ _) same
    · cases went
      exact calls.frame rfl rfl rfl rfl rfl rfl (Nat.le_succ _) same

theorem Calls.message (calls : Calls s) (went : s.message = some after) : Calls after := by
  unfold State.message at went
  split at went
  · dsimp only at went
    have same : ∀ t ∈ s.tasks, t.port = .sync → ∃ old ∈ s.tasks, old.port = .sync ∧ old.request = t.request :=
      fun t member isSync => ⟨t, member, isSync, rfl⟩
    split at went
    · cases went
      exact calls.frame rfl rfl rfl rfl (by simp) rfl (Nat.le_refl _) same
    · cases went
      exact calls.frame rfl rfl rfl rfl (by simp) rfl (Nat.le_refl _) same
  · cases went

/-- At rest every call that has its reply is counted. -/
theorem replied_counted (books : Books s) (calls : Calls s) (rest : s.atRest = true) {id : Nat} {m : Reply Result}
    (replied : (id, .reply m) ∈ s.ended) : id ∈ s.counted := by
  obtain ⟨own, there⟩ := calls.own id m replied
  obtain ⟨t, member, isSync, answered, isId⟩ := books.reply_task there
  have resting := List.all_eq_true.mp rest t member
  refine books.counted.mem_iff.mpr (mem_counted.mpr ⟨t, member, ?_, isId.trans own⟩)
  simp only [Task.resting, Bool.and_eq_true] at resting
  simp only [Task.answered] at answered
  simp only [Task.counts, isSync, decide_true, Bool.true_and]
  cases isAnswer : t.answer <;> simp_all

theorem Calls.add (books : Books s) (calls : Calls s) (rest : s.atRest = true) (t : Task Result) (stuck inFlight : Nat)
    (inbox : Port → List Request) :
    Calls { s with tasks := s.tasks ++ [t], stuck := stuck, inFlight := inFlight, inbox := inbox } :=
  { calls with
    lastly := fun _ _ replied uncounted => absurd (replied_counted books calls rest replied) uncounted
    seen := calls.seen.kept rfl List.prefix_rfl rfl }

theorem Calls.dispatch (books : Books s) (calls : Calls s) {port : Port} (went : s.dispatch settings port = some after) :
    Calls after := by
  unfold State.dispatch at went
  split at went
  · cases went
  · rename_i atRest
    have rest : s.atRest = true := by simpa using atRest
    split at went
    · cases went
    · cases port with
      | async =>
          cases went
          unfold State.exec
          split
          · exact calls.add books rest _ _ _ _
          · exact calls.add books rest _ _ _ _
      | sync =>
          dsimp only at went
          split at went
          · cases went
            exact calls.add books rest _ _ _ _
          · cases went
            unfold State.exec
            split
            · exact calls.add books rest _ _ _ _
            · exact calls.add books rest _ _ _ _

/-- Every task of the list has its request as before. -/
theorem set_kept (found : s.tasks[place]? = some t) (moved : Task Result) (samePort : moved.port = t.port)
    (sameRequest : moved.request = t.request) : ∀ other ∈ s.tasks.set place moved, other.port = .sync →
      ∃ old ∈ s.tasks, old.port = .sync ∧ old.request = other.request := by
  intro other member isSync
  rcases mem_set_or member with old | rfl
  · exact ⟨other, old, isSync, rfl⟩
  · exact ⟨t, List.mem_of_getElem? found, samePort ▸ isSync, sameRequest.symm⟩

theorem Calls.settle (calls : Calls s) {outcome : Outcome Result} (went : s.settle place outcome = some after) :
    Calls after := by
  unfold State.settle at went
  split at went
  · rename_i t found
    split at went
    · cases went
    · split at went
      · cases went
        exact calls.frame rfl rfl rfl rfl rfl rfl (Nat.le_refl _) (set_kept found _ rfl rfl)
      · cases went
        exact calls.frame rfl rfl rfl rfl rfl rfl (Nat.le_refl _) (set_kept found _ rfl rfl)
  · cases went

theorem Calls.deadline (calls : Calls s) (went : s.deadline place = some after) : Calls after := by
  unfold State.deadline at went
  split at went
  · rename_i t found
    split at went
    · cases went
    · cases went
      exact calls.frame rfl rfl rfl rfl rfl rfl (Nat.le_refl _) (set_kept found _ rfl rfl)
  · cases went

theorem Calls.unstick (calls : Calls s) (went : s.unstick place = some after) : Calls after := by
  unfold State.unstick at went
  split at went
  · rename_i t found
    split at went
    · cases went
    · cases went
      exact calls.frame rfl rfl rfl rfl rfl rfl (Nat.le_refl _) (set_kept found _ rfl rfl)
  · cases went

/-- A reply on the sync port is for the worker's call, or for one that gave up. -/
theorem Calls.posts (books : Books s) (calls : Calls s) (found : s.tasks[place]? = some t) (isSync : t.port = .sync)
    (unanswered : t.answered = false) (moved : Task Result) (samePort : moved.port = t.port)
    (sameRequest : moved.request = t.request) (m : Reply Result) (isId : m.id = t.request.id) :
    Calls { s.put place moved with
      outbox := Function.update s.outbox t.port (s.outbox t.port ++ [m])
      replies := Function.update s.replies t.port (s.replies t.port ++ [m]) } := by
  have member := List.mem_of_getElem? found
  have kept := set_kept found moved samePort sameRequest
  rw [isSync]
  exact { calls with
    own := by
      intro id m' replied
      obtain ⟨own, there⟩ := calls.own id m' replied
      exact ⟨own, by simp [there]⟩
    queue := by
      simp only [Function.update_self]
      exact calls.queue.append_right _
    expected := by
      intro m' there
      simp only [Function.update_self, List.mem_append, List.mem_singleton] at there
      rcases there with old | rfl
      · exact calls.expected m' old
      · rcases calls.past t.request (isSync ▸ books.task_sent member) with current | ⟨m'', replied⟩ | gaveUp
        · exact Or.inl ⟨t.request, current, isId.symm⟩
        · obtain ⟨own, there⟩ := calls.own _ _ replied
          obtain ⟨other, isOther, isSync', answered, same⟩ := books.reply_task there
          rw [books.one isOther member (isSync'.trans isSync.symm) (same.trans own), unanswered] at answered
          cases answered
        · exact Or.inr (isId ▸ gaveUp)
    present := by
      intro request current m' there same
      simp only [Function.update_self, List.mem_append, List.mem_singleton] at there ⊢
      rcases there with old | isNew
      · exact Or.inl (calls.present request current m' old same)
      · exact Or.inr isNew
    lastly := by
      intro id m' replied uncounted other isOther isSync'
      obtain ⟨old, isOld, isSync'', same⟩ := kept other isOther isSync'
      exact same ▸ calls.lastly id m' replied uncounted old isOld isSync''
    seen := calls.seen.kept rfl List.prefix_rfl rfl }

theorem woken_request (mode : Mode) : mode.woken.request = mode.request := by
  cases mode <;> rfl

theorem woken_seen (seen : Seen s) : Seen { s with mode := s.mode.woken } := by
  cases isMode : s.mode with
  | asleep => trivial
  | idle | looping | draining | deciding => exact seen.kept isMode.symm List.prefix_rfl rfl

theorem Calls.act (books : Books s) (calls : Calls s) (went : s.act settings place = some after) : Calls after := by
  unfold State.act at went
  split at went
  · rename_i t found
    have ok := books.tasks t (List.mem_of_getElem? found)
    split at went
    · cases went
    · cases went
    · rename_i outcome posting
      cases went
      by_cases isSync : t.port = .sync
      · exact calls.posts books found isSync (by simp [Task.answered, posting])
          { t with answer := if t.port = .sync then .counting else .done } rfl rfl ⟨t.request.id, settings.wire outcome⟩ rfl
      · have differs : Port.sync ≠ t.port := fun same => isSync same.symm
        exact calls.frame rfl rfl rfl (by simp [differs]) (by simp [differs]) rfl (Nat.le_refl _)
          (set_kept found _ rfl rfl)
    · rename_i counting
      cases went
      have kept := set_kept found { t with answer := .notifying } rfl rfl
      exact { calls with
        lastly := by
          intro id m replied uncounted other isOther isSync
          obtain ⟨old, isOld, isSync', same⟩ := kept other isOther isSync
          exact same ▸ calls.lastly id m replied (fun before => uncounted (List.mem_append_left _ before)) old isOld isSync'
        seen := calls.seen.kept rfl (List.prefix_append ..) rfl }
    · rename_i notifying
      cases went
      let moved : Task Result := { t with answer := if t.held then .releasing else .done }
      have kept : Calls (s.put place moved) :=
        calls.frame rfl rfl rfl rfl rfl rfl (Nat.le_refl _) (set_kept found moved rfl rfl)
      refine kept.turn s.mode.woken (woken_request s.mode) ?_
      exact woken_seen kept.seen
    · cases went
      exact calls.frame rfl rfl rfl rfl rfl rfl (Nat.le_refl _) (set_kept found _ rfl rfl)
  · cases went

end Calls

/-! The promises of the async calls. -/
section Promises

variable {Result : Type} {settings : Settings Result} {s after : State Result} {place : Nat} {t : Task Result}

def Ending.received : Ending Result → Option (Reply Result)
  | .reply m => some m
  | _ => none

structure Promises (s : State Result) : Prop where
  received : s.replies .async = (s.settled.filterMap fun entry => entry.2.received) ++ s.outbox .async
  own : ∀ entry ∈ s.settled, (∃ m, entry.2 = .reply m ∧ m.id = entry.1) ∨
    (entry.2 = .unposted ∧ ∀ request ∈ s.sent .async, request.id ≠ entry.1)
  once : (s.settled.map Prod.fst).Nodup
  bound : ∀ entry ∈ s.settled, entry.1 ≤ s.seq
  waiting : ∀ request ∈ s.sent .async, request.id ∈ s.pending ∨ request.id ∈ s.settled.map Prod.fst

theorem start_promises : Promises (start Result) := by
  constructor <;> simp [start]

theorem Promises.frame (promises : Promises s) (replies : after.replies .async = s.replies .async)
    (outbox : after.outbox .async = s.outbox .async) (sent : after.sent .async = s.sent .async)
    (settled : after.settled = s.settled) (pending : after.pending = s.pending) (seq : s.seq ≤ after.seq) :
    Promises after where
  received := by simpa only [replies, settled, outbox] using promises.received
  own := by simpa only [settled, sent] using promises.own
  once := by simpa only [settled] using promises.once
  bound := fun entry member => Nat.le_trans (promises.bound entry (settled ▸ member)) seq
  waiting := by simpa only [sent, pending, settled] using promises.waiting

theorem Promises.async (books : Books s) (promises : Promises s) {op : String} {clones : Bool}
    (went : s.async op clones = some after) : Promises after := by
  unfold State.async at went
  split at went
  · cases went
  · have fresh : s.seq + 1 ∉ s.settled.map Prod.fst := by
      intro member
      obtain ⟨entry, isEntry, same⟩ := List.mem_map.mp member
      have bound := promises.bound entry isEntry
      omega
    dsimp only at went
    split at went
    · cases went
      exact {
        received := promises.received
        own := by
          intro entry member
          rcases promises.own entry member with replied | ⟨unposted, unsent⟩
          · exact Or.inl replied
          · refine Or.inr ⟨unposted, fun request isSent same => ?_⟩
            simp only [State.post, Function.update_self, List.mem_append, List.mem_singleton] at isSent
            rcases isSent with old | rfl
            · exact unsent request old same
            · exact fresh (List.mem_map.mpr ⟨entry, member, same.symm⟩)
        once := promises.once
        bound := fun entry member => Nat.le_succ_of_le (promises.bound entry member)
        waiting := by
          intro request isSent
          simp only [State.post, Function.update_self, List.mem_append, List.mem_singleton] at isSent
          rcases isSent with old | rfl
          · rcases promises.waiting request old with pending | settled
            · exact Or.inl (List.mem_append_left _ pending)
            · exact Or.inr settled
          · exact Or.inl (by simp [State.post]) }
    · cases went
      exact {
        received := by simpa [Ending.received] using promises.received
        own := by
          intro entry member
          rcases List.mem_append.mp member with old | isNew
          · exact promises.own entry old
          · rw [List.mem_singleton.mp isNew]
            refine Or.inr ⟨rfl, fun request isSent same => ?_⟩
            have bound := books.bound .async request isSent
            omega
        once := ended_once promises.once fresh .unposted
        bound := by
          intro entry member
          rcases List.mem_append.mp member with old | isNew
          · exact Nat.le_succ_of_le (promises.bound entry old)
          · exact Nat.le_of_eq (congrArg Prod.fst (List.mem_singleton.mp isNew))
        waiting := by
          intro request isSent
          rcases promises.waiting request isSent with pending | settled
          · exact Or.inl (List.mem_append_left _ pending)
          · refine Or.inr ?_
            rw [List.map_append]
            exact List.mem_append_left _ settled }

/-- A reply on the async port finds its promise. -/
theorem Promises.finds (books : Books s) (promises : Promises s) {m : Reply Result} {rest : List (Reply Result)}
    (queue : s.outbox .async = m :: rest) : m.id ∈ s.pending ∧ m.id ∉ s.settled.map Prod.fst := by
  have there : m ∈ s.replies .async := by
    rw [promises.received, queue]
    simp
  obtain ⟨t, isTask, isAsync, -, isId⟩ := books.reply_task there
  have isSent : t.request ∈ s.sent .async := isAsync ▸ books.task_sent isTask
  have unsettled : m.id ∉ s.settled.map Prod.fst := by
    intro member
    obtain ⟨entry, isEntry, same⟩ := List.mem_map.mp member
    rcases promises.own entry isEntry with ⟨m', isReply, own⟩ | ⟨-, unsent⟩
    · have nodup := books.replies_nodup .async
      rw [promises.received, queue, List.map_append] at nodup
      have before : m'.id ∈ (s.settled.filterMap fun entry => entry.2.received).map Reply.id :=
        List.mem_map_of_mem (List.mem_filterMap.mpr ⟨entry, isEntry, by simp [isReply, Ending.received]⟩)
      exact (List.nodup_append.mp nodup).2.2 _ before _ (List.mem_map_of_mem (List.mem_cons_self ..)) (own.trans same)
    · exact unsent t.request isSent (isId.trans same.symm)
  refine ⟨?_, unsettled⟩
  rcases promises.waiting t.request isSent with pending | settled
  · exact isId ▸ pending
  · exact absurd (isId ▸ settled) unsettled

theorem Promises.message (books : Books s) (promises : Promises s) (went : s.message = some after) : Promises after := by
  unfold State.message at went
  split at went
  · rename_i m rest idle queue
    obtain ⟨pending, unsettled⟩ := promises.finds books queue
    dsimp only at went
    rw [if_neg (not_not_intro pending)] at went
    cases went
    exact {
      received := by
        rw [promises.received, queue]
        simp [Ending.received]
      own := by
        intro entry member
        rcases List.mem_append.mp member with old | isNew
        · exact promises.own entry old
        · rw [List.mem_singleton.mp isNew]
          exact Or.inl ⟨m, rfl, rfl⟩
      once := ended_once promises.once unsettled _
      bound := by
        intro entry member
        rcases List.mem_append.mp member with old | isNew
        · exact promises.bound entry old
        · rw [List.mem_singleton.mp isNew]
          have there : m ∈ s.replies .async := by
            rw [promises.received, queue]
            simp
          obtain ⟨t, isTask, -, -, isId⟩ := books.reply_task there
          exact isId ▸ books.bound _ _ (books.task_sent isTask)
      waiting := by
        intro request isSent
        by_cases same : request.id = m.id
        · refine Or.inr ?_
          simp [same]
        · rcases promises.waiting request isSent with waits | settled
          · exact Or.inl ((List.mem_erase_of_ne same).mpr waits)
          · refine Or.inr ?_
            rw [List.map_append]
            exact List.mem_append_left _ settled }
  · cases went

end Promises

/-! Every run. -/
section Runs

variable {Result : Type} {settings : Settings Result} {s after : State Result}

structure Sound (s : State Result) : Prop where
  books : Books s
  calls : Calls s
  promises : Promises s

theorem start_sound : Sound (start Result) := ⟨start_books, start_calls, start_promises⟩

theorem Books.step (books : Books s) {e : Event Result} (went : s.step settings e = some after) : Books after := by
  cases e with
  | sync op clones =>
      simp only [State.step, State.sync] at went
      split at went
      · cases went
      · split at went
        · cases went
          exact (books.post .sync op).worker s.outbox (.looping ⟨s.seq + 1, op⟩) s.pending s.ended s.settled
        · cases went
          exact books.unposted.worker _ _ _ _ _
  | async op clones =>
      simp only [State.step, State.async] at went
      split at went
      · cases went
      · split at went
        · cases went
          exact (books.post .async op).worker s.outbox s.mode (s.pending ++ [s.seq + 1]) s.ended s.settled
        · cases went
          exact books.unposted.worker _ _ _ _ _
  | load =>
      simp only [State.step, State.load] at went
      split at went
      · cases went
        exact books.worker _ _ _ _ _
      · cases went
  | receive =>
      simp only [State.step, State.receive] at went
      split at went
      · split at went
        · cases went
          exact books.worker _ _ _ _ _
        · split at went
          · cases went
            exact books.worker _ _ _ _ _
          · cases went
            exact books.worker _ _ _ _ _
      · cases went
  | giveUp =>
      simp only [State.step, State.giveUp] at went
      split at went
      · cases went
        exact books.worker _ _ _ _ _
      · cases went
  | wait =>
      simp only [State.step, State.wait] at went
      split at went
      · cases went
        exact books.worker _ _ _ _ _
      · cases went
  | expire =>
      simp only [State.step, State.expire] at went
      split at went
      · cases went
        exact books.worker _ _ _ _ _
      · cases went
  | message =>
      simp only [State.step, State.message] at went
      split at went
      · split at went
        · cases went
          exact books.worker _ _ _ _ _
        · cases went
          exact books.worker _ _ _ _ _
      · cases went
  | dispatch port => exact books.dispatch went
  | settle place outcome => exact books.settle went
  | deadline place => exact books.deadline went
  | act place => exact books.act went
  | unstick place => exact books.unstick went

theorem Calls.step (books : Books s) (calls : Calls s) {e : Event Result} (went : s.step settings e = some after) :
    Calls after := by
  cases e with
  | sync op clones => exact calls.sync books went
  | load => exact calls.load books went
  | receive => exact calls.receive books went
  | giveUp => exact calls.giveUp books went
  | wait => exact calls.wait went
  | expire => exact calls.expire went
  | async op clones => exact calls.async went
  | message => exact calls.message went
  | dispatch port => exact calls.dispatch books went
  | settle place outcome => exact calls.settle went
  | deadline place => exact calls.deadline went
  | act place => exact calls.act books went
  | unstick place => exact calls.unstick went

theorem Promises.sync (promises : Promises s) {op : String} {clones : Bool} (went : s.sync op clones = some after) :
    Promises after := by
  unfold State.sync at went
  split at went
  · cases went
  · split at went
    · cases went
      exact promises.frame rfl rfl (by simp [State.post]) rfl rfl (Nat.le_succ _)
    · cases went
      exact promises.frame rfl rfl rfl rfl rfl (Nat.le_succ _)

theorem Promises.receive (promises : Promises s) (went : s.receive = some after) : Promises after := by
  unfold State.receive at went
  split at went
  · split at went
    · cases went
      exact promises.frame rfl rfl rfl rfl rfl (Nat.le_refl _)
    · dsimp only at went
      split at went
      · cases went
        exact promises.frame rfl (by simp) rfl rfl rfl (Nat.le_refl _)
      · cases went
        exact promises.frame rfl (by simp) rfl rfl rfl (Nat.le_refl _)
  · cases went

theorem Promises.dispatch (promises : Promises s) {port : Port} (went : s.dispatch settings port = some after) :
    Promises after := by
  unfold State.dispatch at went
  split at went
  · cases went
  · split at went
    · cases went
    · cases port with
      | async =>
          cases went
          unfold State.exec
          split
          · exact promises.frame rfl rfl rfl rfl rfl (Nat.le_refl _)
          · exact promises.frame rfl rfl rfl rfl rfl (Nat.le_refl _)
      | sync =>
          dsimp only at went
          split at went
          · cases went
            exact promises.frame rfl rfl rfl rfl rfl (Nat.le_refl _)
          · cases went
            unfold State.exec
            split
            · exact promises.frame rfl rfl rfl rfl rfl (Nat.le_refl _)
            · exact promises.frame rfl rfl rfl rfl rfl (Nat.le_refl _)

theorem Promises.act (promises : Promises s) {place : Nat} (went : s.act settings place = some after) :
    Promises after := by
  unfold State.act at went
  split at went
  · rename_i t found
    split at went
    · cases went
    · cases went
    · rename_i outcome posting
      cases went
      by_cases isAsync : t.port = .async
      · exact { promises with
          received := by simp [isAsync, promises.received, State.put] }
      · have differs : Port.async ≠ t.port := fun same => isAsync same.symm
        exact promises.frame (by simp [differs]) (by simp [differs]) rfl rfl rfl (Nat.le_refl _)
    · cases went
      exact promises.frame rfl rfl rfl rfl rfl (Nat.le_refl _)
    · cases went
      exact promises.frame rfl rfl rfl rfl rfl (Nat.le_refl _)
    · cases went
      exact promises.frame rfl rfl rfl rfl rfl (Nat.le_refl _)
  · cases went

theorem Promises.step (books : Books s) (promises : Promises s) {e : Event Result}
    (went : s.step settings e = some after) : Promises after := by
  cases e with
  | async op clones => exact promises.async books went
  | message => exact promises.message books went
  | sync op clones => exact promises.sync went
  | receive => exact promises.receive went
  | dispatch port => exact promises.dispatch went
  | act place => exact promises.act went
  | load =>
      simp only [State.step, State.load] at went
      split at went <;> cases went
      exact promises.frame rfl rfl rfl rfl rfl (Nat.le_refl _)
  | giveUp =>
      simp only [State.step, State.giveUp] at went
      split at went <;> cases went
      exact promises.frame rfl rfl rfl rfl rfl (Nat.le_refl _)
  | wait =>
      simp only [State.step, State.wait] at went
      split at went <;> cases went
      exact promises.frame rfl rfl rfl rfl rfl (Nat.le_refl _)
  | expire =>
      simp only [State.step, State.expire] at went
      split at went <;> cases went
      exact promises.frame rfl rfl rfl rfl rfl (Nat.le_refl _)
  | settle place outcome =>
      simp only [State.step, State.settle] at went
      split at went <;> try cases went
      split at went <;> try cases went
      split at went <;> cases went
      · exact promises.frame rfl rfl rfl rfl rfl (Nat.le_refl _)
      · exact promises.frame rfl rfl rfl rfl rfl (Nat.le_refl _)
  | deadline place =>
      simp only [State.step, State.deadline] at went
      split at went <;> try cases went
      split at went <;> cases went
      exact promises.frame rfl rfl rfl rfl rfl (Nat.le_refl _)
  | unstick place =>
      simp only [State.step, State.unstick] at went
      split at went <;> try cases went
      split at went <;> cases went
      exact promises.frame rfl rfl rfl rfl rfl (Nat.le_refl _)

theorem Sound.step (sound : Sound s) {e : Event Result} (went : s.step settings e = some after) : Sound after :=
  ⟨sound.books.step went, sound.calls.step sound.books went, sound.promises.step sound.books went⟩

theorem run_append {middle : State Result} {first later : List (Event Result)}
    (went : s.run settings first = some middle) (goes : middle.run settings later = some after) :
    s.run settings (first ++ later) = some after := by
  induction first generalizing s with
  | nil =>
      cases went
      exact goes
  | cons e rest ih =>
      obtain ⟨next, one, more⟩ := Option.bind_eq_some_iff.mp went
      exact Option.bind_eq_some_iff.mpr ⟨next, one, ih more⟩

theorem Sound.run (sound : Sound s) {events : List (Event Result)} (went : s.run settings events = some after) :
    Sound after := by
  induction events generalizing s with
  | nil =>
      cases went
      exact sound
  | cons e rest ih =>
      obtain ⟨middle, first, later⟩ := Option.bind_eq_some_iff.mp went
      exact ih (sound.step first) later

end Runs

end Countinghouse.FileBridge
