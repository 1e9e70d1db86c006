import Mathlib.Data.List.Perm.Basic
import Countinghouse.FileBridge

/-!
The records of the file bridge in every state that it can come to: what was posted, what was
answered and counted, and what the main thread's two counters are the number of.
-/

namespace Countinghouse.FileBridge

/-! Tasks. -/
section Tasks

variable {Result : Type} {tasks : List (Task Result)} {place : Nat} {t after : Task Result} {port : Port}

/-- The reply is on its port. -/
def Task.answered (t : Task Result) : Bool := match t.answer with | .waiting | .posting _ => false | _ => true

def Task.holds (t : Task Result) : Bool := t.held && match t.answer with | .done => false | _ => true

def Task.sticks (t : Task Result) : Bool := t.timedOut && (t.work = .running || t.work = .settling)

/-- The reply is in the counter. -/
def Task.counts (t : Task Result) : Bool :=
  t.port = .sync && match t.answer with | .notifying | .releasing | .done => true | _ => false

structure Task.Ok (t : Task Result) : Prop where
  held : t.held = true → t.port = .sync
  waiting : t.answer = .waiting → t.work = .running ∧ t.timedOut = false
  posting : ∀ outcome, t.answer = .posting outcome → t.timedOut = true → outcome = .error (timeout t.request.op)
  counting : t.answer = .counting ∨ t.answer = .notifying ∨ t.answer = .releasing → t.port = .sync
  running : t.work = .running ∨ t.work = .settling → t.answer ≠ .waiting → t.timedOut = true
  settling : t.work = .settling → t.timedOut = true
  releasing : t.answer = .releasing → t.held = true

theorem Task.Ok.unanswered (ok : t.Ok) (running : t.work = .running) (early : ¬ t.timedOut = true) :
    t.answer = .waiting := by
  by_contra answered
  exact early (ok.running (Or.inl running) answered)

def taken (port : Port) (tasks : List (Task Result)) : List Request :=
  (tasks.filter fun t => t.port = port).map Task.request

def answeredIds (port : Port) (tasks : List (Task Result)) : List Nat :=
  (tasks.filter fun t => t.port = port && t.answered).map fun t => t.request.id

def countedIds (tasks : List (Task Result)) : List Nat := (tasks.filter Task.counts).map fun t => t.request.id

theorem set_split (found : tasks[place]? = some t) :
    ∃ before behind, tasks = before ++ t :: behind ∧ ∀ after, tasks.set place after = before ++ after :: behind := by
  obtain ⟨inside, rfl⟩ := List.getElem?_eq_some_iff.mp found
  refine ⟨tasks.take place, tasks.drop (place + 1), ?_, fun after => ?_⟩
  · rw [← List.drop_eq_getElem_cons inside, List.take_append_drop]
  · exact List.set_eq_take_append_cons_drop.trans (if_pos inside)

theorem mem_taken {request : Request} :
    request ∈ taken port tasks ↔ ∃ t ∈ tasks, t.port = port ∧ t.request = request := by
  simp [taken, and_assoc]

theorem mem_answered {id : Nat} :
    id ∈ answeredIds port tasks ↔ ∃ t ∈ tasks, t.port = port ∧ t.answered = true ∧ t.request.id = id := by
  simp [answeredIds, and_assoc]

theorem mem_counted {id : Nat} : id ∈ countedIds tasks ↔ ∃ t ∈ tasks, t.counts = true ∧ t.request.id = id := by
  simp [countedIds, and_assoc]

theorem taken_set (found : tasks[place]? = some t) (samePort : after.port = t.port)
    (sameRequest : after.request = t.request) : taken port (tasks.set place after) = taken port tasks := by
  obtain ⟨before, behind, rfl, change⟩ := set_split found
  rw [change]
  by_cases its : t.port = port
  · simp [taken, List.filter_append, samePort, sameRequest, its]
  · simp [taken, List.filter_append, samePort, its]

theorem answered_same (found : tasks[place]? = some t) (after : Task Result) (samePort : after.port = t.port)
    (sameRequest : after.request = t.request) (same : after.answered = t.answered) :
    answeredIds port (tasks.set place after) = answeredIds port tasks := by
  obtain ⟨before, behind, rfl, change⟩ := set_split found
  rw [change]
  by_cases its : t.port = port ∧ t.answered = true
  · simp [answeredIds, List.filter_append, samePort, sameRequest, same, its]
  · simp [answeredIds, List.filter_append, samePort, same, its]

theorem answered_more (found : tasks[place]? = some t) (after : Task Result) (samePort : after.port = t.port)
    (sameRequest : after.request = t.request) (unanswered : t.answered = false) (answered : after.answered = true) :
    (answeredIds port (tasks.set place after)).Perm
      (answeredIds port tasks ++ if port = t.port then [t.request.id] else []) := by
  obtain ⟨before, behind, rfl, change⟩ := set_split found
  rw [change]
  by_cases its : port = t.port
  · subst its
    simp only [answeredIds, List.filter_append, List.map_append, List.filter_cons, samePort, sameRequest, answered,
      unanswered, decide_true, Bool.and_true, Bool.and_false, if_true, List.map_cons]
    rw [List.append_assoc]
    exact List.Perm.append_left _ (List.perm_append_singleton ..).symm
  · have differs : ¬ t.port = port := fun same => its same.symm
    simp [answeredIds, List.filter_append, samePort, its, differs]

theorem counted_same (found : tasks[place]? = some t) (after : Task Result) (sameRequest : after.request = t.request)
    (same : after.counts = t.counts) : countedIds (tasks.set place after) = countedIds tasks := by
  obtain ⟨before, behind, rfl, change⟩ := set_split found
  rw [change]
  by_cases its : t.counts = true
  · simp [countedIds, List.filter_append, sameRequest, same, its]
  · simp [countedIds, List.filter_append, same, its]

theorem counted_more (found : tasks[place]? = some t) (after : Task Result) (sameRequest : after.request = t.request)
    (uncounted : t.counts = false) (counts : after.counts = true) :
    (countedIds (tasks.set place after)).Perm (countedIds tasks ++ [t.request.id]) := by
  obtain ⟨before, behind, rfl, change⟩ := set_split found
  rw [change]
  simp only [countedIds, List.filter_append, List.map_append, List.filter_cons, sameRequest, uncounted, counts, if_true,
    List.map_cons]
  rw [List.append_assoc]
  exact List.Perm.append_left _ (List.perm_append_singleton ..).symm

theorem count_set (found : tasks[place]? = some t) (after : Task Result) (p : Task Result → Bool) :
    (tasks.set place after).countP p + (if p t then 1 else 0) = tasks.countP p + if p after then 1 else 0 := by
  obtain ⟨before, behind, rfl, change⟩ := set_split found
  rw [change]
  simp only [List.countP_append, List.countP_cons]
  omega

end Tasks

/-! What the main thread and the ports have on record. -/
section Books

variable {Result : Type} {settings : Settings Result} {s after : State Result} {place : Nat} {t : Task Result}

structure Books (s : State Result) : Prop where
  tasks : ∀ t ∈ s.tasks, t.Ok
  sent : ∀ port, s.sent port = taken port s.tasks ++ s.inbox port
  rising : ∀ port, (s.sent port).Pairwise fun first second => first.id < second.id
  bound : ∀ port, ∀ request ∈ s.sent port, request.id ≤ s.seq
  replies : ∀ port, ((s.replies port).map Reply.id).Perm (answeredIds port s.tasks)
  timedOut : ∀ t ∈ s.tasks, t.timedOut = true → t.answered = true →
    ⟨t.request.id, .error (timeout t.request.op)⟩ ∈ s.replies t.port
  stuck : s.stuck = s.tasks.countP Task.sticks
  inFlight : s.inFlight = s.tasks.countP Task.holds
  counted : s.counted.Perm (countedIds s.tasks)
  counter : s.counter = s.counted.length % 2 ^ 32

theorem start_books : Books (start Result) := by
  constructor <;> simp [start, taken, answeredIds, countedIds]

/-- The worker's loop and promises are on another page. -/
theorem Books.worker (books : Books s) (outbox : Port → List (Reply Result)) (mode : Mode) (pending : List Nat)
    (ended settled : List (Nat × Ending Result)) :
    Books { s with outbox := outbox, mode := mode, pending := pending, ended := ended, settled := settled } :=
  { books with }

theorem Books.unposted (books : Books s) : Books { s with seq := s.seq + 1 } :=
  { books with bound := fun port request member => Nat.le_succ_of_le (books.bound port request member) }

theorem Books.post (books : Books s) (port : Port) (op : String) :
    Books { s.post port ⟨s.seq + 1, op⟩ with seq := s.seq + 1 } :=
  { books with
    sent := by
      intro other
      by_cases same : other = port
      · subst same
        simp [State.post, books.sent other]
      · simpa [State.post, same] using books.sent other
    rising := by
      intro other
      by_cases same : other = port
      · subst same
        simp only [State.post, Function.update_self, List.pairwise_append, List.pairwise_singleton, List.mem_singleton,
          forall_eq, true_and]
        exact ⟨books.rising other, fun request member => Nat.lt_succ_of_le (books.bound other request member)⟩
      · simpa [State.post, same] using books.rising other
    bound := by
      intro other request member
      by_cases same : other = port
      · subst same
        simp only [State.post, Function.update_self, List.mem_append, List.mem_singleton] at member
        rcases member with old | rfl
        · exact Nat.le_succ_of_le (books.bound other request old)
        · exact Nat.le_refl _
      · simp only [State.post, Function.update_of_ne same] at member
        exact Nat.le_succ_of_le (books.bound other request member) }

/-- A request comes off its port. -/
theorem Books.add (books : Books s) {port : Port} {request : Request} {rest : List Request}
    (inbox : s.inbox port = request :: rest) (isPort : t.port = port) (isRequest : t.request = request) (ok : t.Ok)
    (unanswered : t.answered = false) (uncounted : t.counts = false) (unstuck : t.sticks = false) :
    Books { s with
      inbox := Function.update s.inbox port rest
      tasks := s.tasks ++ [t]
      inFlight := s.inFlight + if t.holds then 1 else 0 } :=
  { books with
    tasks := by
      intro other member
      rcases List.mem_append.mp member with old | isNew
      · exact books.tasks other old
      · exact List.mem_singleton.mp isNew ▸ ok
    sent := by
      intro other
      by_cases same : other = port
      · subst same
        simp [books.sent other, inbox, taken, isPort, isRequest]
      · have differs : ¬ t.port = other := fun its => same (its.symm.trans isPort)
        simp [books.sent other, taken, same, differs]
    replies := by
      intro other
      simpa [answeredIds, unanswered] using books.replies other
    timedOut := by
      intro other member late answered
      rcases List.mem_append.mp member with old | isNew
      · exact books.timedOut other old late answered
      · rw [List.mem_singleton.mp isNew, unanswered] at answered
        cases answered
    stuck := by simpa [unstuck] using books.stuck
    inFlight := by simp [books.inFlight, List.countP_cons]
    counted := by simpa [countedIds, uncounted] using books.counted }

theorem mem_set_or {tasks : List (Task Result)} {t other : Task Result} (member : other ∈ tasks.set place t) :
    other ∈ tasks ∨ other = t := List.mem_or_eq_of_mem_set member

/-- A task moves on, with its port and request. -/
theorem Books.put (books : Books s) (found : s.tasks[place]? = some t) (moved : Task Result)
    (samePort : moved.port = t.port) (sameRequest : moved.request = t.request) (ok : moved.Ok) (replies outbox : Port → List (Reply Result))
    (counted : List Nat)
    (answers : ∀ port, ((replies port).map Reply.id).Perm (answeredIds port (s.tasks.set place moved)))
    (kept : ∀ port, ∀ m ∈ s.replies port, m ∈ replies port)
    (late : moved.timedOut = true → moved.answered = true →
      ⟨t.request.id, .error (timeout t.request.op)⟩ ∈ replies t.port)
    (counts : counted.Perm (countedIds (s.tasks.set place moved))) (counter : Nat)
    (wraps : counter = counted.length % 2 ^ 32) (stuck inFlight : Nat)
    (sticks : stuck + (if t.sticks then 1 else 0) = s.stuck + if moved.sticks then 1 else 0)
    (holds : inFlight + (if t.holds then 1 else 0) = s.inFlight + if moved.holds then 1 else 0) :
    Books { s.put place moved with
      replies := replies
      outbox := outbox
      counted := counted
      counter := counter
      stuck := stuck
      inFlight := inFlight } where
  tasks := by
    intro other member
    rcases mem_set_or member with old | rfl
    · exact books.tasks other old
    · exact ok
  sent := by
    intro port
    simp only [State.put]
    rw [taken_set found samePort sameRequest]
    exact books.sent port
  rising := books.rising
  bound := books.bound
  replies := answers
  timedOut := by
    intro other member timedOut answered
    rcases mem_set_or member with old | rfl
    · exact kept _ _ (books.timedOut other old timedOut answered)
    · rw [sameRequest, samePort]
      exact late timedOut answered
  stuck := by
    have change := count_set found moved Task.sticks
    have before := books.stuck
    simp only [State.put]
    omega
  inFlight := by
    have change := count_set found moved Task.holds
    have before := books.inFlight
    simp only [State.put]
    omega
  counted := counts
  counter := wraps

theorem Books.dispatch (books : Books s) {port : Port} (went : s.dispatch settings port = some after) : Books after := by
  unfold State.dispatch at went
  split at went
  · cases went
  · split at went
    · cases went
    · rename_i request rest inbox
      have refused (held : Bool) (sync : held = true → port = .sync) :
          (⟨port, request, held, .none, false, .posting (.error (refusal request.op))⟩ : Task Result).Ok := by
        constructor <;> simp_all
      have running (held : Bool) (sync : held = true → port = .sync) :
          (⟨port, request, held, .running, false, .waiting⟩ : Task Result).Ok := by
        constructor <;> simp_all
      cases port with
      | async =>
          cases went
          unfold State.exec
          split
          · simpa [State.add, Task.holds] using
              books.add inbox rfl rfl (refused false (by simp)) rfl (by rfl) (by rfl)
          · simpa [State.add, Task.holds] using
              books.add inbox rfl rfl (running false (by simp)) rfl (by rfl) (by rfl)
      | sync =>
          dsimp only at went
          split at went
          · cases went
            simpa [State.add, Task.holds] using
              books.add inbox rfl rfl (refused false (by simp)) rfl (by rfl) (by rfl)
          · cases went
            unfold State.exec
            split
            · simpa [State.add, Task.holds] using
                books.add inbox rfl rfl (refused true (by simp)) rfl (by rfl) (by rfl)
            · simpa [State.add, Task.holds] using
                books.add inbox rfl rfl (running true (by simp)) rfl (by rfl) (by rfl)

/-- A task moves on and nothing is posted or counted. -/
theorem Books.move (books : Books s) (found : s.tasks[place]? = some t) (moved : Task Result)
    (samePort : moved.port = t.port) (sameRequest : moved.request = t.request) (ok : moved.Ok) (answered : moved.answered = t.answered)
    (counts : moved.counts = t.counts) (late : moved.timedOut = true → moved.answered = true → t.timedOut = true)
    (stuck inFlight : Nat) (sticks : stuck + (if t.sticks then 1 else 0) = s.stuck + if moved.sticks then 1 else 0)
    (holds : inFlight + (if t.holds then 1 else 0) = s.inFlight + if moved.holds then 1 else 0) :
    Books { s.put place moved with stuck := stuck, inFlight := inFlight } :=
  books.put found moved samePort sameRequest ok s.replies s.outbox s.counted
    (fun port => (answered_same found moved samePort sameRequest answered) ▸ books.replies port) (fun _ _ there => there)
    (fun timedOut isAnswered =>
      books.timedOut t (List.mem_of_getElem? found) (late timedOut isAnswered) (answered ▸ isAnswered))
    ((counted_same found moved sameRequest counts) ▸ books.counted) s.counter books.counter stuck inFlight sticks holds

theorem Books.settle (books : Books s) {outcome : Outcome Result} (went : s.settle place outcome = some after) :
    Books after := by
  unfold State.settle at went
  split at went
  · rename_i t found
    have ok := books.tasks t (List.mem_of_getElem? found)
    split at went
    · cases went
    · rename_i running
      replace running : t.work = .running := by simpa using running
      split at went
      · rename_i late
        cases went
        refine books.move found { t with work := .settling } rfl rfl ?_ rfl rfl (fun late _ => late) s.stuck s.inFlight ?_ rfl
        · exact ⟨ok.held, fun waits => absurd (ok.waiting waits).2 (by simp [late]), ok.posting, ok.counting,
            fun _ _ => late, fun _ => late, ok.releasing⟩
        · simp [Task.sticks, late, running]
      · rename_i early
        cases went
        have waiting := ok.unanswered running early
        refine books.move found { t with work := .settled, answer := .posting outcome } rfl rfl ?_ ?_ ?_
          (fun late _ => late) s.stuck s.inFlight ?_ ?_
        · exact ⟨ok.held, by simp, fun _ _ late => absurd late early, by simp, by simp, by simp, by simp⟩
        · simp [Task.answered, waiting]
        · simp [Task.counts, waiting]
        · simp [Task.sticks, early]
        · simp [Task.holds, waiting]
  · cases went

theorem Books.deadline (books : Books s) (went : s.deadline place = some after) : Books after := by
  unfold State.deadline at went
  split at went
  · rename_i t found
    have ok := books.tasks t (List.mem_of_getElem? found)
    split at went
    · cases went
    · rename_i due
      simp only [Bool.or_eq_true, Bool.not_eq_true', decide_eq_true_eq, not_or, ne_eq, Decidable.not_not] at due
      obtain ⟨⟨-, running⟩, early⟩ := due
      have waiting := ok.unanswered running early
      cases went
      refine books.move found { t with timedOut := true, answer := .posting (.error (timeout t.request.op)) } rfl rfl ?_ ?_
        ?_ (by simp [Task.answered]) (s.stuck + 1) s.inFlight ?_ ?_
      · exact ⟨ok.held, by simp, by rintro _ ⟨⟩ _; rfl, by simp, fun _ _ => rfl, fun _ => rfl, by simp⟩
      · simp [Task.answered, waiting]
      · simp [Task.counts, waiting]
      · simp [Task.sticks, early, running]
      · simp [Task.holds, waiting]
  · cases went

theorem Books.unstick (books : Books s) (went : s.unstick place = some after) : Books after := by
  unfold State.unstick at went
  split at went
  · rename_i t found
    have ok := books.tasks t (List.mem_of_getElem? found)
    split at went
    · cases went
    · rename_i settling
      replace settling : t.work = .settling := by simpa using settling
      have late := ok.settling settling
      cases went
      have stuck := books.stuck
      have some : 0 < s.tasks.countP Task.sticks :=
        List.countP_pos_iff.mpr ⟨t, List.mem_of_getElem? found, by simp [Task.sticks, late, settling]⟩
      refine books.move found { t with work := .settled } rfl rfl ?_ rfl rfl (fun late _ => late) (s.stuck - 1) s.inFlight
        ?_ rfl
      · exact ⟨ok.held, fun waits => absurd (ok.waiting waits).2 (by simp [late]), ok.posting, ok.counting, by simp, by simp,
          ok.releasing⟩
      · simp only [Task.sticks, late, settling]
        simp
        omega
  · cases went

/-- A reply is posted. -/
theorem Books.posts (books : Books s) (found : s.tasks[place]? = some t) {outcome : Outcome Result}
    (posting : t.answer = .posting outcome) (moved : Task Result) (samePort : moved.port = t.port)
    (sameRequest : moved.request = t.request) (ok : moved.Ok) (answered : moved.answered = true)
    (counts : moved.counts = t.counts) (late : moved.timedOut = true → t.timedOut = true)
    (sticks : moved.sticks = t.sticks) (holds : moved.holds = t.holds) :
    let m : Reply Result := ⟨t.request.id, settings.wire outcome⟩
    Books { s.put place moved with
      outbox := Function.update s.outbox t.port (s.outbox t.port ++ [m])
      replies := Function.update s.replies t.port (s.replies t.port ++ [m]) } := by
  have old := books.tasks t (List.mem_of_getElem? found)
  have unanswered : t.answered = false := by simp [Task.answered, posting]
  refine books.put found moved samePort sameRequest ok _ _ s.counted ?_ ?_ ?_ ?_ s.counter books.counter s.stuck s.inFlight
    (by rw [sticks]) (by rw [holds])
  · intro port
    refine List.Perm.trans ?_ (answered_more found moved samePort sameRequest unanswered answered).symm
    by_cases same : port = t.port
    · subst same
      simpa using (books.replies t.port).append_right [t.request.id]
    · simpa [same] using books.replies port
  · intro port m there
    by_cases same : port = t.port
    · subst same
      simp [there]
    · simpa [same] using there
  · intro isLate _
    rw [old.posting outcome posting (late isLate)]
    simp [Settings.wire]
  · rw [counted_same found moved sameRequest counts]
    exact books.counted

theorem Books.act (books : Books s) (went : s.act settings place = some after) : Books after := by
  unfold State.act at went
  split at went
  · rename_i t found
    have member := List.mem_of_getElem? found
    have ok := books.tasks t member
    split at went
    · cases went
    · cases went
    · rename_i outcome posting
      have running : t.work = .running ∨ t.work = .settling → t.timedOut = true := fun works =>
        ok.running works (by simp [posting])
      cases went
      by_cases sync : t.port = .sync
      · rw [if_pos sync]
        refine books.posts found posting { t with answer := .counting } rfl rfl ?_ rfl ?_ id rfl ?_
        · exact ⟨ok.held, by simp, by simp, fun _ => sync, fun works _ => running works, ok.settling, by simp⟩
        · simp [Task.counts, posting]
        · simp [Task.holds, posting]
      · rw [if_neg sync]
        have unheld : t.held = false := by simpa using fun held => sync (ok.held held)
        refine books.posts found posting { t with answer := .done } rfl rfl ?_ rfl ?_ id rfl ?_
        · exact ⟨ok.held, by simp, by simp, by simp, fun works _ => running works, ok.settling, by simp⟩
        · simp [Task.counts, sync]
        · simp [Task.holds, unheld]
    · rename_i counting
      have sync := ok.counting (Or.inl counting)
      cases went
      let moved : Task Result := { t with answer := .notifying }
      refine books.put found moved rfl rfl ?_ s.replies s.outbox _ ?_ (fun _ _ there => there) ?_
        ?_ _ ?_ s.stuck s.inFlight rfl ?_
      · exact ⟨ok.held, by simp, by simp, fun _ => sync, fun works _ => ok.running works (by simp [counting]),
          ok.settling, by simp⟩
      · intro port
        rw [answered_same found moved rfl rfl (by simp [moved, Task.answered, counting])]
        exact books.replies port
      · exact fun late _ => books.timedOut t member late (by simp [Task.answered, counting])
      · exact (books.counted.append_right _).trans
          (counted_more found moved rfl (by simp [Task.counts, counting]) (by simp [moved, Task.counts, sync])).symm
      · simp [books.counter]
      · simp [moved, Task.holds, counting]
    · rename_i notifying
      have sync := ok.counting (Or.inr (Or.inl notifying))
      have running := fun works => ok.running works (by simp [notifying])
      cases went
      by_cases held : t.held = true
      · rw [if_pos held]
        refine (books.move found { t with answer := .releasing } rfl rfl ?_ ?_ ?_
          (fun late _ => late) s.stuck s.inFlight rfl ?_).worker s.outbox s.mode.woken s.pending s.ended s.settled
        · exact ⟨ok.held, by simp, by simp, fun _ => sync, fun works _ => running works, ok.settling, fun _ => held⟩
        · simp [Task.answered, notifying]
        · simp [Task.counts, notifying]
        · simp [Task.holds, notifying]
      · rw [if_neg held]
        refine (books.move found { t with answer := .done } rfl rfl ?_ ?_ ?_
          (fun late _ => late) s.stuck s.inFlight rfl ?_).worker s.outbox s.mode.woken s.pending s.ended s.settled
        · exact ⟨ok.held, by simp, by simp, fun _ => sync, fun works _ => running works, ok.settling, by simp⟩
        · simp [Task.answered, notifying]
        · simp [Task.counts, notifying]
        · simp [Task.holds, held]
    · rename_i releasing
      have sync := ok.counting (Or.inr (Or.inr releasing))
      have holds : t.holds = true := by simp [Task.holds, releasing, ok.releasing releasing]
      have some : 0 < s.tasks.countP Task.holds := List.countP_pos_iff.mpr ⟨t, member, holds⟩
      have held := books.inFlight
      cases went
      refine books.move found { t with answer := .done } rfl rfl ?_ ?_ ?_
        (fun late _ => late) s.stuck (s.inFlight - 1) rfl ?_
      · exact ⟨ok.held, by simp, by simp, fun _ => sync, fun works _ => ok.running works (by simp [releasing]),
          ok.settling, by simp⟩
      · simp [Task.answered, releasing]
      · simp [Task.counts, releasing]
      · simp only [holds, if_true]
        simp [Task.holds]
        omega
  · cases went

theorem Books.nodup (books : Books s) (port : Port) : ((s.sent port).map Request.id).Nodup :=
  List.pairwise_map.mpr ((books.rising port).imp fun less => Nat.ne_of_lt less)

theorem Books.replies_nodup (books : Books s) (port : Port) : ((s.replies port).map Reply.id).Nodup := by
  rw [(books.replies port).nodup_iff]
  have nodup := books.nodup port
  rw [books.sent port, List.map_append] at nodup
  have sub : (answeredIds port s.tasks).Sublist ((taken port s.tasks).map Request.id) := by
    simp only [answeredIds, taken, List.map_map]
    exact (List.monotone_filter_right _ fun t both => (Bool.and_eq_true_iff.mp both).1).map _
  exact (List.nodup_append.mp nodup).1.sublist sub

/-- One request, one task. -/
theorem Books.one (books : Books s) {other : Task Result} (member : t ∈ s.tasks) (member' : other ∈ s.tasks)
    (samePort : t.port = other.port) (sameId : t.request.id = other.request.id) : t = other := by
  have nodup := books.nodup other.port
  rw [books.sent other.port, List.map_append] at nodup
  have once := (List.nodup_append.mp nodup).1
  simp only [taken, List.map_map] at once
  refine List.inj_on_of_nodup_map once ?_ ?_ sameId
  · simp [member, samePort]
  · simp [member']

theorem Books.task_sent (books : Books s) (member : t ∈ s.tasks) : t.request ∈ s.sent t.port := by
  rw [books.sent]
  exact List.mem_append_left _ (mem_taken.mpr ⟨t, member, rfl, rfl⟩)

theorem Books.reply_task (books : Books s) {port : Port} {m : Reply Result} (there : m ∈ s.replies port) :
    ∃ t ∈ s.tasks, t.port = port ∧ t.answered = true ∧ t.request.id = m.id :=
  mem_answered.mp ((books.replies port).mem_iff.mp (List.mem_map_of_mem there))

theorem Books.task_reply (books : Books s) (member : t ∈ s.tasks) (answered : t.answered = true) :
    ∃ m ∈ s.replies t.port, m.id = t.request.id := by
  have there := (books.replies t.port).mem_iff.mpr (mem_answered.mpr ⟨t, member, rfl, answered, rfl⟩)
  exact List.mem_map.mp there

end Books

end Countinghouse.FileBridge
