import Countinghouse.BridgeCalls

/-!
What the file bridge delivers: one reply to each request, the worker's loop that sleeps only
without it, and the two counters of the main thread.
-/

namespace Countinghouse.FileBridge

/-! The main thread comes to an end of what it owes. -/
section Progress

variable {Result : Type} {settings : Settings Result} {s after : State Result} {place : Nat} {t : Task Result}

def Answer.due : Answer Result → Nat
  | .waiting => 5
  | .posting _ => 4
  | .counting => 3
  | .notifying => 2
  | .releasing => 1
  | .done => 0

def Work.due : Work → Nat
  | .running => 2
  | .settling => 1
  | .none | .settled => 0

def Task.due (t : Task Result) : Nat := t.answer.due + t.work.due

/-- How many steps the main thread has before it at most. -/
def State.owed (s : State Result) : Nat :=
  8 * ((s.inbox .sync).length + (s.inbox .async).length) + (s.tasks.map Task.due).sum

def Event.main : Event Result → Bool
  | .dispatch _ | .settle _ _ | .deadline _ | .act _ | .unstick _ => true
  | _ => false

def Event.calls : Event Result → Bool
  | .sync _ _ | .async _ _ => true
  | _ => false

/-- Nothing is left to do but for the broker. -/
structure Blocked (settings : Settings Result) (s : State Result) : Prop where
  dispatch : ∀ port, s.dispatch settings port = none
  deadline : ∀ place, s.deadline place = none
  act : ∀ place, s.act settings place = none
  unstick : ∀ place, s.unstick place = none

theorem due_set (found : s.tasks[place]? = some t) (moved : Task Result) :
    ((s.tasks.set place moved).map Task.due).sum + t.due = (s.tasks.map Task.due).sum + moved.due := by
  obtain ⟨before, behind, same, change⟩ := set_split found
  rw [change, same]
  simp only [List.map_append, List.map_cons, List.sum_append, List.sum_cons]
  omega

theorem owed_put (found : s.tasks[place]? = some t) (moved : Task Result) (less : moved.due < t.due) :
    (s.put place moved).owed < s.owed := by
  have change := due_set found moved
  simp only [State.owed, State.put]
  omega

theorem owed_taken {port : Port} {request : Request} {rest : List Request} (inbox : s.inbox port = request :: rest)
    (t : Task Result) (small : t.due < 8) :
    ({ s with inbox := Function.update s.inbox port rest, tasks := s.tasks ++ [t] } : State Result).owed < s.owed := by
  cases port with
  | sync =>
      simp [State.owed, inbox]
      omega
  | async =>
      simp [State.owed, inbox]
      omega

theorem owed_step (books : Books s) {e : Event Result} (main : e.main = true) (went : s.step settings e = some after) :
    after.owed < s.owed := by
  cases e with
  | dispatch port =>
      simp only [State.step, State.dispatch] at went
      split at went
      · cases went
      · split at went
        · cases went
        · rename_i request rest inbox
          cases port with
          | async =>
              cases went
              unfold State.exec
              split
              · exact owed_taken inbox _ (by simp [Task.due, Answer.due, Work.due])
              · exact owed_taken inbox _ (by simp [Task.due, Answer.due, Work.due])
          | sync =>
              dsimp only at went
              split at went
              · cases went
                exact owed_taken inbox _ (by simp [Task.due, Answer.due, Work.due])
              · cases went
                unfold State.exec
                split
                · exact owed_taken inbox _ (by simp [Task.due, Answer.due, Work.due])
                · exact owed_taken inbox _ (by simp [Task.due, Answer.due, Work.due])
  | settle place outcome =>
      simp only [State.step, State.settle] at went
      split at went
      · rename_i t found
        split at went
        · cases went
        · rename_i running
          replace running : t.work = .running := by simpa using running
          split at went
          · cases went
            exact owed_put found _ (by simp [Task.due, Work.due, running])
          · rename_i early
            cases went
            have waiting := (books.tasks t (List.mem_of_getElem? found)).unanswered running early
            exact owed_put found _ (by simp [Task.due, Work.due, Answer.due, running, waiting])
      · cases went
  | deadline place =>
      simp only [State.step, State.deadline] at went
      split at went
      · rename_i t found
        split at went
        · cases went
        · rename_i due
          simp only [Bool.or_eq_true, Bool.not_eq_true', decide_eq_true_eq, not_or, ne_eq, Decidable.not_not] at due
          have waiting := (books.tasks t (List.mem_of_getElem? found)).unanswered due.1.2 due.2
          cases went
          exact owed_put found _ (by simp [Task.due, Answer.due, waiting])
      · cases went
  | act place =>
      simp only [State.step, State.act] at went
      split at went
      · rename_i t found
        split at went
        · cases went
        · cases went
        · rename_i outcome posting
          cases went
          refine owed_put found _ ?_
          split <;> simp [Task.due, Answer.due, posting]
        · rename_i counting
          cases went
          exact owed_put found _ (by simp [Task.due, Answer.due, counting])
        · rename_i notifying
          cases went
          refine owed_put found _ ?_
          split <;> simp [Task.due, Answer.due, notifying]
        · rename_i releasing
          cases went
          exact owed_put found _ (by simp [Task.due, Answer.due, releasing])
      · cases went
  | unstick place =>
      simp only [State.step, State.unstick] at went
      split at went
      · rename_i t found
        split at went
        · cases went
        · rename_i settling
          replace settling : t.work = .settling := by simpa using settling
          cases went
          exact owed_put found _ (by simp [Task.due, Work.due, settling])
      · cases went
  | sync | load | receive | giveUp | wait | expire | async | message => cases main

theorem owed_post (s : State Result) (port : Port) (request : Request) : (s.post port request).owed = s.owed + 8 := by
  cases port with
  | sync =>
      simp [State.owed, State.post]
      omega
  | async =>
      simp [State.owed, State.post]
      omega

/-- The worker only adds to it with its calls. -/
theorem owed_worker {e : Event Result} (worker : e.main = false) (went : s.step settings e = some after) :
    after.owed ≤ s.owed + if e.calls then 8 else 0 := by
  cases e with
  | sync op clones =>
      simp only [State.step, State.sync] at went
      split at went
      · cases went
      · split at went
        · cases went
          exact Nat.le_of_eq (owed_post s .sync ⟨s.seq + 1, op⟩)
        · cases went
          exact Nat.le_add_right ..
  | async op clones =>
      simp only [State.step, State.async] at went
      split at went
      · cases went
      · split at went
        · cases went
          exact Nat.le_of_eq (owed_post s .async ⟨s.seq + 1, op⟩)
        · cases went
          exact Nat.le_add_right ..
  | load =>
      simp only [State.step, State.load] at went
      split at went <;> cases went
      exact Nat.le_refl _
  | receive =>
      simp only [State.step, State.receive] at went
      split at went <;> try cases went
      split at went <;> try split at went
      all_goals
        cases went
        exact Nat.le_refl _
  | giveUp =>
      simp only [State.step, State.giveUp] at went
      split at went <;> cases went
      exact Nat.le_refl _
  | wait =>
      simp only [State.step, State.wait] at went
      split at went <;> cases went
      exact Nat.le_refl _
  | expire =>
      simp only [State.step, State.expire] at went
      split at went <;> cases went
      exact Nat.le_refl _
  | message =>
      simp only [State.step, State.message] at went
      split at went <;> try cases went
      split at went <;> cases went
      · exact Nat.le_refl _
      · exact Nat.le_refl _
  | dispatch | settle | deadline | act | unstick => cases worker

theorem owed_run (books : Books s) {events : List (Event Result)} (went : s.run settings events = some after) :
    events.countP Event.main + after.owed ≤ s.owed + 8 * events.countP Event.calls := by
  induction events generalizing s with
  | nil =>
      cases went
      simp
  | cons e rest ih =>
      obtain ⟨middle, first, later⟩ := Option.bind_eq_some_iff.mp went
      have more := ih (books.step first) later
      simp only [List.countP_cons]
      cases main : e.main with
      | true =>
          have one := owed_step books main first
          simp only [if_true]
          omega
      | false =>
          have one := owed_worker main first
          simp only [Bool.false_eq_true, if_false]
          split at one
          · rename_i calls
            simp only [calls, if_true]
            omega
          · omega

/-- A task that is not at rest has something due. -/
theorem Blocked.rests (blocked : Blocked settings s) : s.atRest = true := by
  refine List.all_eq_true.mpr fun t member => ?_
  obtain ⟨place, found⟩ := List.mem_iff_getElem?.mp member
  have act := blocked.act place
  have unstick := blocked.unstick place
  simp only [State.act, found] at act
  simp only [State.unstick, found] at unstick
  cases isAnswer : t.answer with
  | posting | counting | notifying | releasing => simp [isAnswer] at act
  | waiting | done =>
      simp only [Task.resting, isAnswer]
      simpa using unstick

theorem Blocked.answered (books : Books s) (blocked : Blocked settings s) (member : t ∈ s.tasks) : t.answered = true := by
  have rest := List.all_eq_true.mp blocked.rests t member
  obtain ⟨place, found⟩ := List.mem_iff_getElem?.mp member
  cases isAnswer : t.answer with
  | waiting =>
      have waits := (books.tasks t member).waiting isAnswer
      have deadline := blocked.deadline place
      simp [State.deadline, found, blocked.rests, waits] at deadline
  | posting => simp [Task.resting, isAnswer] at rest
  | counting | notifying | releasing | done => simp [Task.answered, isAnswer]

theorem Blocked.all (books : Books s) (blocked : Blocked settings s) {port : Port} {request : Request}
    (sent : request ∈ s.sent port) : ∃ m ∈ s.replies port, m.id = request.id := by
  rw [books.sent port] at sent
  rcases List.mem_append.mp sent with isTaken | waits
  · obtain ⟨t, member, rfl, rfl⟩ := mem_taken.mp isTaken
    exact books.task_reply member (blocked.answered books member)
  · have dispatch := blocked.dispatch port
    cases isInbox : s.inbox port with
    | nil => simp [isInbox] at waits
    | cons first rest =>
        cases port with
        | sync =>
            simp only [State.dispatch, blocked.rests, isInbox, Bool.not_true, Bool.false_eq_true, if_false] at dispatch
            split at dispatch <;> cases dispatch
        | async => simp [State.dispatch, blocked.rests, isInbox] at dispatch

end Progress

/-! The loop's sleep, the guard and the stuck requests. -/
section States

variable {Result : Type} {settings : Settings Result} {s : State Result}

/-- The sync calls that gave up. -/
def State.gaveUps (s : State Result) : List Nat :=
  s.ended.filterMap fun entry => match entry.2 with | .gaveUp => some entry.1 | _ => none

theorem mem_gaveUps {id : Nat} : id ∈ s.gaveUps ↔ (id, .gaveUp) ∈ s.ended := by
  simp only [State.gaveUps, List.mem_filterMap]
  constructor
  · rintro ⟨⟨id', ending⟩, member, isId⟩
    cases ending with
    | gaveUp =>
        cases isId
        exact member
    | reply | unposted => cases isId
  · exact fun member => ⟨_, member, rfl⟩

theorem Books.counted_nodup (books : Books s) : s.counted.Nodup := by
  rw [books.counted.nodup_iff]
  have nodup := books.nodup .sync
  rw [books.sent .sync, List.map_append] at nodup
  have sub : (countedIds s.tasks).Sublist ((taken .sync s.tasks).map Request.id) := by
    simp only [countedIds, taken, List.map_map]
    refine (List.monotone_filter_right _ fun t counts => ?_).map _
    simp only [Task.counts, Bool.and_eq_true] at counts
    exact counts.1
  exact (List.nodup_append.mp nodup).1.sublist sub

theorem Books.counted_sent (books : Books s) {id : Nat} (counted : id ∈ s.counted) :
    ∃ request ∈ s.sent .sync, request.id = id := by
  obtain ⟨t, member, counts, isId⟩ := mem_counted.mp (books.counted.mem_iff.mp counted)
  simp only [Task.counts, Bool.and_eq_true, decide_eq_true_eq] at counts
  exact ⟨t.request, counts.1 ▸ books.task_sent member, isId⟩

/-- A wait that sets in although the reply is counted has missed a whole turn of the counter. -/
theorem wait_turned (books : Books s) (calls : Calls s) {request : Request} {seen : Nat}
    (deciding : s.mode = .deciding request seen) (counted : request.id ∈ s.counted) (sleeps : s.counter = seen) :
    2 ^ 32 ≤ s.gaveUps.length + 2 := by
  obtain ⟨before, snapshot, unread⟩ : ∃ before, Snapshot s seen before ∧ request.id ∉ before := by
    have isSeen := calls.seen
    rwa [Seen, deciding] at isSeen
  obtain ⟨since, isSince⟩ := snapshot.earlier
  obtain ⟨last, isLast⟩ := snapshot.last
  have nodup := books.counted_nodup
  rw [← isSince] at nodup counted
  obtain ⟨-, once, apart⟩ := List.nodup_append.mp nodup
  have unfinished : since ⊆ request.id :: last :: s.gaveUps := by
    intro id member
    have fresh : id ∉ before := fun old => apart id old id member rfl
    obtain ⟨other, sent, isId⟩ := books.counted_sent (isSince ▸ List.mem_append_right before member)
    rw [← isId] at fresh ⊢
    rcases calls.past other sent with current | ⟨m, replied⟩ | gaveUp
    · rw [deciding] at current
      cases current
      exact List.mem_cons_self ..
    · rw [isLast _ _ replied fresh]
      exact List.mem_cons_of_mem _ (List.mem_cons_self ..)
    · exact List.mem_cons_of_mem _ (List.mem_cons_of_mem _ (mem_gaveUps.mpr gaveUp))
  have fits := (List.subperm_of_subset once unfinished).length_le
  have some : 0 < since.length :=
    List.length_pos_of_mem ((List.mem_append.mp counted).resolve_left unread)
  -- the counter shows the same again after a multiple of its range
  have counter := books.counter
  rw [sleeps, snapshot.seen, ← isSince, List.length_append] at counter
  simp only [List.length_cons] at fits
  omega

/-- Whoever holds the guard is a call that gave up. -/
theorem guard_held (books : Books s) (calls : Calls s) (rest : s.atRest = true) {request : Request}
    (waits : request ∈ s.inbox .sync) (held : 0 < s.inFlight) :
    ∃ t ∈ s.tasks, t.port = .sync ∧ t.work = .running ∧ t.answer = .waiting ∧ t.request.id < request.id ∧
      (t.request.id, .gaveUp) ∈ s.ended := by
  rw [books.inFlight, List.countP_pos_iff] at held
  obtain ⟨t, member, holds⟩ := held
  have ok := books.tasks t member
  simp only [Task.holds, Bool.and_eq_true] at holds
  have isSync := ok.held holds.1
  have resting := List.all_eq_true.mp rest t member
  have waiting : t.answer = .waiting := by
    cases isAnswer : t.answer <;> simp_all [Task.resting]
  have isSent := isSync ▸ books.task_sent member
  -- requests are taken in the order in which they were sent
  have earlier : t.request.id < request.id := by
    have rising := books.rising .sync
    rw [books.sent .sync] at rising
    exact (List.pairwise_append.mp rising).2.2 _ (mem_taken.mpr ⟨t, member, isSync, rfl⟩) _ waits
  refine ⟨t, member, isSync, (ok.waiting waiting).1, waiting, earlier, ?_⟩
  rcases calls.past t.request isSent with current | ⟨m, replied⟩ | gaveUp
  · have sent : request ∈ s.sent .sync := by
      rw [books.sent .sync]
      exact List.mem_append_right _ waits
    have above := (calls.current _ current).2.1 request sent
    omega
  · obtain ⟨own, there⟩ := calls.own _ _ replied
    obtain ⟨other, isOther, isSync', answered, same⟩ := books.reply_task there
    rw [books.one isOther member (isSync'.trans isSync.symm) (same.trans own)] at answered
    simp [Task.answered, waiting] at answered
  · exact gaveUp

/-- At rest `stuck` is the number of answered requests whose work goes on. -/
theorem stuck_running (books : Books s) (rest : s.atRest = true) :
    s.stuck = s.tasks.countP fun t => t.work = .running && t.answered := by
  rw [books.stuck]
  refine List.countP_congr fun t member => ?_
  have ok := books.tasks t member
  have resting := List.all_eq_true.mp rest t member
  simp only [Task.resting, Bool.and_eq_true, decide_eq_true_eq, ne_eq] at resting
  simp only [Task.sticks, Bool.and_eq_true, Bool.or_eq_true, decide_eq_true_eq]
  constructor
  · rintro ⟨late, running | settling⟩
    · refine ⟨running, ?_⟩
      cases isAnswer : t.answer with
      | waiting => simp [ok.waiting isAnswer] at late
      | posting => simp [isAnswer] at resting
      | counting | notifying | releasing | done => simp [Task.answered, isAnswer]
    · exact absurd settling resting.2
  · rintro ⟨running, answered⟩
    refine ⟨ok.running (Or.inl running) fun waiting => ?_, Or.inl running⟩
    simp [Task.answered, waiting] at answered

end States

/-! The bridge as a whole. -/
section Delivery

variable {Result : Type}

structure Delivered (settings : Settings Result) (s : State Result) : Prop where
  /-- A port has one reply to a request at most, -/
  once : ∀ port, ((s.replies port).map Reply.id).Nodup
  asked : ∀ port, ∀ m ∈ s.replies port, ∃ request ∈ s.sent port, request.id = m.id
  /-- has it when the main thread has nothing more to do, -/
  all : Blocked settings s → ∀ port, ∀ request ∈ s.sent port, ∃ m ∈ s.replies port, m.id = request.id
  /-- and that comes after so many steps of it, whatever the worker does meanwhile. -/
  ends : ∀ events after, s.run settings events = some after →
    events.countP Event.main ≤ s.owed + 8 * events.countP Event.calls
  /-- A sync call ends once, by a reply only with its own. -/
  returns : (s.ended.map Prod.fst).Nodup ∧ ∀ id m, (id, .reply m) ∈ s.ended → m.id = id ∧ m ∈ s.replies .sync
  /-- What its loop discards is for a call that gave up. -/
  discards : ∀ request seen m rest, s.mode = .draining request seen → s.outbox .sync = m :: rest → m.id ≠ request.id →
    (m.id, .gaveUp) ∈ s.ended
  /-- A promise settles once, by a reply only with its own, -/
  settles : (s.settled.map Prod.fst).Nodup ∧ ∀ id m, (id, .reply m) ∈ s.settled → m.id = id ∧ m ∈ s.replies .async
  /-- and each reply finds its promise. -/
  finds : ∀ m rest, s.outbox .async = m :: rest → m.id ∈ s.pending ∧ m.id ∉ s.settled.map Prod.fst
  /-- A wait that sets in with the reply counted takes a whole turn of the counter. -/
  wakes : ∀ request seen, s.mode = .deciding request seen → request.id ∈ s.counted → s.counter = seen →
    2 ^ 32 ≤ s.gaveUps.length + 2
  /-- The guard refuses a request for an earlier one that gave up and is still being executed. -/
  refuses : ∀ request rest, s.inbox .sync = request :: rest → s.atRest = true → 0 < s.inFlight →
    ∃ t ∈ s.tasks, t.port = .sync ∧ t.work = .running ∧ t.answer = .waiting ∧ t.request.id < request.id ∧
      (t.request.id, .gaveUp) ∈ s.ended
  /-- Between callbacks `stuck` is the number of requests that were answered while their work goes on, -/
  stuck : s.atRest = true → s.stuck = s.tasks.countP fun t => t.work = .running && t.answered
  /-- which are those answered ETIMEDOUT. -/
  timedOut : ∀ t ∈ s.tasks, t.work = .running → t.answered = true →
    ⟨t.request.id, .error (timeout t.request.op)⟩ ∈ s.replies t.port

theorem Sound.delivered (settings : Settings Result) {s : State Result} (sound : Sound s) : Delivered settings s where
  once := sound.books.replies_nodup
  asked := by
    intro port m there
    obtain ⟨t, member, rfl, -, isId⟩ := sound.books.reply_task there
    exact ⟨t.request, sound.books.task_sent member, isId⟩
  all := fun blocked _ _ => blocked.all sound.books
  ends := fun events after went => Nat.le_trans (Nat.le_add_right ..) (owed_run sound.books went)
  returns := ⟨sound.calls.once, sound.calls.own⟩
  discards := by
    intro request seen m rest draining queue differs
    rcases sound.calls.expected m (queue ▸ List.mem_cons_self ..) with ⟨other, current, same⟩ | gaveUp
    · rw [draining] at current
      cases current
      exact absurd same.symm differs
    · exact gaveUp
  settles := by
    refine ⟨sound.promises.once, fun id m settled => ?_⟩
    have there : m ∈ s.replies .async := by
      rw [sound.promises.received]
      exact List.mem_append_left _ (List.mem_filterMap.mpr ⟨_, settled, rfl⟩)
    rcases sound.promises.own _ settled with ⟨m', isReply, own⟩ | ⟨unposted, -⟩
    · cases isReply
      exact ⟨own, there⟩
    · cases unposted
  finds := fun m rest queue => sound.promises.finds sound.books queue
  wakes := fun request seen => wait_turned sound.books sound.calls
  refuses := fun request rest waits atRest =>
    guard_held sound.books sound.calls atRest (waits ▸ List.mem_cons_self ..)
  stuck := stuck_running sound.books
  timedOut := by
    intro t member running answered
    refine sound.books.timedOut t member ((sound.books.tasks t member).running (Or.inl running) fun waiting => ?_) answered
    simp [Task.answered, waiting] at answered

/-- In every state that the bridge comes to. -/
theorem bridge_delivers (settings : Settings Result) (events : List (Event Result)) (s : State Result)
    (went : (start Result).run settings events = some s) : Delivered settings s :=
  (start_sound.run went).delivered settings

def plain : Settings Unit := ⟨2, fun _ => none⟩

def answeredCall : List (Event Unit) :=
  [.sync "stat" true, .load, .dispatch .sync, .settle 0 (.ok ()), .act 0, .act 0, .act 0, .act 0, .receive]

theorem answered_call_delivers : ∃ s, (start Unit).run plain answeredCall = some s ∧
    s.ended = [(1, .reply ⟨1, .ok ()⟩)] ∧ Delivered plain s :=
  ⟨_, rfl, rfl, bridge_delivers plain answeredCall _ rfl⟩

end Delivery

/-! A call after one that gave up, arguments that cannot be posted, and a counter that comes round. -/
section Exceptions

/-- A sync call made after the one before it has its reply is not refused. -/
def NeverRefused (settings : Settings Unit) : Prop :=
  ∀ events s, (start Unit).run settings events = some s → ∀ request rest, s.inbox .sync = request :: rest →
    s.atRest = true → 0 < s.inFlight → ∀ before previous behind,
      s.sent .sync = before ++ previous :: request :: behind → ∀ m, (previous.id, .reply m) ∉ s.ended

/-- Calls and promises end with a reply of their own, but for the calls that give up. -/
def RepliesOnly (settings : Settings Unit) : Prop :=
  ∀ events s, (start Unit).run settings events = some s →
    (∀ entry ∈ s.ended, entry.2 = .gaveUp ∨ ∃ m, entry.2 = .reply m ∧ m.id = entry.1) ∧
    ∀ entry ∈ s.settled, ∃ m, entry.2 = .reply m ∧ m.id = entry.1

/-- No wait sets in with the call's own reply counted. -/
def NeverSleeps (settings : Settings Unit) : Prop :=
  ∀ events s, (start Unit).run settings events = some s → ∀ request seen, s.mode = .deciding request seen →
    request.id ∈ s.counted → s.counter ≠ seen

/-- The first call gives up while it is executed, the second is refused for it, and so is the third. -/
def refusedTwice : List (Event Unit) :=
  [.sync "stat" true, .load, .dispatch .sync, .receive, .giveUp,
    .sync "stat" true, .load, .dispatch .sync, .act 1, .act 1, .act 1, .receive, .sync "stat" true]

theorem refused_twice : ¬ NeverRefused plain := by
  intro never
  exact never refusedTwice _ rfl ⟨3, "stat"⟩ [] rfl rfl (by decide) [⟨1, "stat"⟩] ⟨2, "stat"⟩ [] rfl
    ⟨2, .error (refusal "stat")⟩ (List.mem_cons_of_mem _ (List.mem_cons_self ..))

theorem unposted_promise : ¬ RepliesOnly plain := by
  intro only
  obtain ⟨m, isReply, -⟩ := (only [.async "access" false] _ rfl).2 (1, .unposted) (List.mem_cons_self ..)
  cases isReply

/-- The main thread has nothing on hand. -/
structure Free (s : State Unit) : Prop where
  rests : s.atRest = true
  inFlight : s.inFlight = 0
  stuck : s.stuck = 0

theorem serve_one {s : State Unit} (free : Free s) {request : Request} {rest : List Request}
    (inbox : s.inbox .sync = request :: rest) (awake : s.mode.woken = s.mode) :
    ∃ events after, s.run plain events = some after ∧ Free after ∧ after.inbox .sync = rest ∧ after.mode = s.mode ∧
      after.counter = (s.counter + 1) % 2 ^ 32 ∧ after.counted = s.counted ++ [request.id] := by
  let place := s.tasks.length
  refine ⟨[.dispatch .sync, .settle place (.ok ()), .act place, .act place, .act place, .act place], ?_⟩
  simp only [State.run, State.step, State.dispatch, free.rests, free.inFlight, free.stuck, inbox, State.exec, plain,
    State.add, State.settle, State.act, State.put, place]
  simp [awake]
  have rests := free.rests
  exact ⟨by simpa [State.atRest, Task.resting] using rests, rfl, rfl⟩

theorem serve_all {waits : List Request} {s : State Unit} (free : Free s) (inbox : s.inbox .sync = waits)
    (awake : s.mode.woken = s.mode) (small : s.counter < 2 ^ 32) :
    ∃ events after, s.run plain events = some after ∧ after.mode = s.mode ∧
      after.counter = (s.counter + waits.length) % 2 ^ 32 ∧ after.counted = s.counted ++ waits.map Request.id := by
  induction waits generalizing s with
  | nil => exact ⟨[], s, rfl, rfl, (Nat.mod_eq_of_lt small).symm, by simp⟩
  | cons request rest ih =>
      obtain ⟨first, middle, went, stillFree, left, mode, counter, counted⟩ := serve_one free inbox awake
      obtain ⟨later, after, goes, mode', counter', counted'⟩ := ih stillFree left (by rw [mode, awake])
        (counter ▸ Nat.mod_lt _ (by decide))
      refine ⟨first ++ later, after, run_append went goes, mode'.trans mode, ?_, ?_⟩
      · rw [counter', counter, List.length_cons]
        omega
      · rw [counted', counted]
        simp

/-- A call comes to its wait with nothing on its port. -/
theorem call_waits {s : State Unit} (idle : s.mode = .idle) (counter : s.counter = 0) (outbox : s.outbox .sync = []) :
    s.run plain [.sync "stat" true, .load, .receive] =
      some { s.post .sync ⟨s.seq + 1, "stat"⟩ with seq := s.seq + 1, mode := .deciding ⟨s.seq + 1, "stat"⟩ 0 } := by
  simp [State.run, State.step, State.sync, State.post, State.load, State.receive, idle, outbox, counter]

/-- The main thread is blocked, and one sync call after the other gives up. -/
theorem stalled (calls : Nat) : ∃ events s, (start Unit).run plain events = some s ∧ Free s ∧ s.mode = .idle ∧
    s.counter = 0 ∧ s.counted = [] ∧ s.outbox .sync = [] ∧ (s.inbox .sync).length = calls := by
  induction calls with
  | zero => exact ⟨[], start Unit, rfl, ⟨rfl, rfl, rfl⟩, rfl, rfl, rfl, rfl, rfl⟩
  | succ calls ih =>
      obtain ⟨events, s, went, free, idle, counter, counted, outbox, waits⟩ := ih
      have called := run_append went (call_waits idle counter outbox)
      refine ⟨_, _, @run_append Unit plain _ _ _ _ [.giveUp] called rfl, ⟨free.rests, free.inFlight, free.stuck⟩, rfl, counter,
        counted, outbox, ?_⟩
      simp [State.post, waits]

/-- With so many replies counted between the load and the wait the counter shows the same again. -/
theorem counter_round : ¬ NeverSleeps plain := by
  intro never
  obtain ⟨stall, s, went, free, idle, counter, counted, outbox, waits⟩ := stalled (2 ^ 32 - 1)
  have called := run_append went (call_waits idle counter outbox)
  have small : s.counter < 2 ^ 32 := by omega
  obtain ⟨served, after, goes, mode, round, all⟩ := serve_all
    (s := { s.post .sync ⟨s.seq + 1, "stat"⟩ with seq := s.seq + 1, mode := .deciding ⟨s.seq + 1, "stat"⟩ 0 })
    ⟨free.rests, free.inFlight, free.stuck⟩ rfl rfl small
  refine never _ after (run_append called goes) ⟨s.seq + 1, "stat"⟩ 0 mode ?_ ?_
  · rw [all]
    simp [State.post]
  · rw [round]
    simp [State.post, waits, counter]
theorem bridge_exceptions : ¬ NeverRefused plain ∧ ¬ RepliesOnly plain ∧ ¬ NeverSleeps plain :=
  ⟨refused_twice, unposted_promise, counter_round⟩

end Exceptions

end Countinghouse.FileBridge
