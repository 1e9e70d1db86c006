import Countinghouse.JobIsolation

/-!
The answers of two runs with the same steps of one tenant. The requests for one job go by the
tenant's own jobs; listJobs and getJobHistory answer alike exactly when the others' jobs leave
the tenant's room in the windows they read.
-/

namespace Countinghouse.JobControl

open SharedWindow

/-! getJobHistory. -/
section History

variable {Value Rank : Type} {setup : Setup Value Rank} {key : String} {mine : String → Bool} {w w' : World Value}

def Record.ofTenant (key : String) (item : Record Value) : Bool := ownsJob (tenant key) item.job.data

/-- The loop picks the latest record of each of the caller's jobs, up to 20. -/
theorem recent_firsts (key : String) (cap : Nat) (keyList : List String) (list : List (Record Value)) :
    recent (tenant key) cap keyList list =
      firsts (fun item => item.job.id) 20 cap keyList (list.filter (Record.ofTenant key)) := by
  induction list generalizing cap keyList with
  | nil => rfl
  | cons item rest ih =>
      unfold recent
      by_cases full : 20 ≤ cap
      · -- The loop goes on through the list without a further record.
        have none : ∀ others : List (Record Value), firsts (fun item => item.job.id) 20 cap keyList others = [] :=
          fun others => (firsts_nil_iff cap keyList others).mpr (Or.inl full)
        rw [if_pos full, ih, none, none]
      · rw [if_neg full]
        by_cases own : item.ofTenant key = true
        · have owns : ownsJob (tenant key) item.job.data = true := own
          rw [List.filter_cons, if_pos own]
          simp only [owns, Bool.not_true, Bool.false_eq_true, if_false, firsts, if_neg full, ih]
        · have owns : ownsJob (tenant key) item.job.data = false := by simpa [Record.ofTenant] using own
          rw [List.filter_cons, if_neg own]
          simp only [owns, Bool.not_false, if_true, ih]

theorem history_firsts (name : String) (w : World Value) :
    getJobHistory (tenant key) name w =
      .ok (firsts (fun item => item.job.id) 20 0 [] ((w.jobinfo name).filter (Record.ofTenant key))) := by
  unfold getJobHistory
  rw [if_neg (by simp [tenant, AuthCtx.anonymous]), recent_firsts]

/-- The tenant's records of a name that the list still has. -/
def World.recorded (key name : String) (w : World Value) : List (Record Value) :=
  (w.jobinfo name).filter (Record.ofTenant key)

/-- Those that a list of its own would have. -/
def World.recordable (key name : String) (w : World Value) : List (Record Value) :=
  ((w.saved name).filter (Record.ofTenant key)).take 201

/-- The list has 20 of the tenant's jobs, or each that a list of its own would have. -/
def HistoryRoom (key name : String) (w : World Value) : Prop :=
  20 ≤ ((w.recorded key name).map fun item => item.job.id).toFinset.card ∨
    ∀ item ∈ w.recordable key name, ∃ item' ∈ w.recorded key name, item'.job.id = item.job.id

theorem history_room_iff {name : String} (trimmed : w.jobinfo name = (w.saved name).take 201) :
    getJobHistory (tenant key) name w = .ok (firsts (fun item => item.job.id) 20 0 [] (w.recordable key name)) ↔
      HistoryRoom key name w := by
  have isPrefix : w.recorded key name <+: w.recordable key name := by
    unfold World.recorded World.recordable
    rw [trimmed]
    exact window_prefix (Record.ofTenant key) 201 (w.saved name)
  rw [history_firsts]
  constructor
  · intro same
    exact (firsts_prefix_iff isPrefix).mp (Except.ok.inj same)
  · intro room
    exact congrArg Except.ok ((firsts_prefix_iff isPrefix).mpr room)

theorem Agree.recordable (agree : Agree setup key mine w w') (name : String) :
    w.recordable key name = w'.recordable key name :=
  congrArg (List.take 201) (agree.saved name)

end History

/-! getJob and removeJob. -/
section Single

variable {Value Rank : Type} {setup : Setup Value Rank} {key : String} {mine : String → Bool} {w w' : World Value}

theorem Agree.getJob (agree : Agree setup key mine w w') {id : String} (isMine : mine id = true) :
    getJob setup (tenant key) id w = getJob setup (tenant key) id w' := by
  unfold JobControl.getJob
  rw [agree.find isMine]

theorem Agree.removed (agree : Agree setup key mine w w') (name : Option String) {id : String} {isRepeat : Option Bool}
    (isMine : mine id = true ∨ isRepeat = some true) :
    (JobControl.removeJob setup (tenant key) name id isRepeat w).1 =
      (JobControl.removeJob setup (tenant key) name id isRepeat w').1 := by
  by_cases multi : setup.workerThread = true
  · cases name with
    | none => simp [JobControl.removeJob, multi, tenant, AuthCtx.anonymous]
    | some name =>
        cases isRepeat with
        | none => simp [JobControl.removeJob, multi, tenant, AuthCtx.anonymous]
        | some flag =>
            cases flag with
            | true =>
                rw [remove_repeat key name id w multi, remove_repeat key name id w' multi]
                have found : (removeJobScheduler w (schedulerId setup (tenant key) name)).1 =
                    (removeJobScheduler w' (schedulerId setup (tenant key) name)).1 :=
                  congrArg Option.isSome (agree.schedulers name)
                rw [found]
            | false =>
                rw [remove_one key name id w multi, remove_one key name id w' multi,
                  agree.find (isMine.resolve_right (by simp))]
                cases w'.find id with
                | none => rfl
                | some entry =>
                    dsimp only
                    split
                    · rfl
                    · split <;> rfl
  · simp [JobControl.removeJob, multi]

end Single

/-! listJobs. -/
section Listing

variable {Value Rank : Type} {setup : Setup Value Rank} {key : String} {w w' : World Value}

def ofTenant (key : String) (entry : Job Value × Status) : Bool := ownsJob (tenant key) entry.1.data

def World.window (key : String) (w : World Value) (status : Status) : List (Job Value × Status) :=
  ((w.listed status).take 50).filter (ofTenant key)

def statuses : List Status := [.waiting, .active, .delayed, .completed, .failed]

theorem list_windows (w : World Value) (multi : setup.workerThread = true) :
    listJobs setup (tenant key) w = .ok (statuses.flatMap (w.window key)) := by
  unfold listJobs World.getJobs
  rw [if_neg (by simp [multi]), if_neg (by simp [tenant, AuthCtx.anonymous]), List.filter_flatMap]
  rfl

theorem list_single (w : World Value) (single : setup.workerThread = false) :
    listJobs setup (tenant key) w = .error (.GET_JOB_ERROR multiThread) := by
  unfold listJobs
  rw [if_pos (by simp [single])]

theorem mem_window {status : Status} {entry : Job Value × Status} (member : entry ∈ w.window key status) :
    entry.2 = status := by
  have listed : entry ∈ w.listed status := List.mem_of_mem_take (List.mem_of_mem_filter member)
  simpa using (List.mem_filter.mp listed).2

/-- What listJobs shows of one status can be told from the rest. -/
theorem window_of_list (w : World Value) (status : Status) :
    ((statuses.flatMap (w.window key)).filter fun entry => entry.2 = status) = w.window key status := by
  have apart : ∀ other, ((w.window key other).filter fun entry => entry.2 = status) =
      if other = status then w.window key other else [] := by
    intro other
    split
    · rename_i same
      exact List.filter_eq_self.mpr fun entry member => by simp [mem_window member, same]
    · rename_i differs
      exact List.filter_eq_nil_iff.mpr fun entry member => by simp [mem_window member, differs]
  cases status <;> simp [statuses, List.filter_append, apart]

theorem windows_iff :
    statuses.flatMap (w.window key) = statuses.flatMap (w'.window key) ↔ ∀ status, w.window key status = w'.window key status := by
  constructor
  · intro same status
    rw [← window_of_list w, same, window_of_list]
  · intro same
    rw [funext same]

end Listing

/-! Two worlds that agree on the tenant's jobs. -/
section Answers

variable {Value Rank : Type} [LinearOrder Rank] {setup : Setup Value Rank} {key : String} {mine : String → Bool}
  {w w' : World Value}

/-- The tenant's jobs with a status. -/
theorem listed_own (kept : Kept setup key mine w) (status : Status) :
    (w.listed status).filter (ofTenant key) = (w.jobs.filter fun entry => mine entry.1.id).filter fun entry => entry.2 = status := by
  rw [World.listed, List.filter_comm]
  congr 1
  exact List.filter_congr fun entry member => (kept.owned entry member).symm

theorem Agree.listed (agree : Agree setup key mine w w') (kept : Kept setup key mine w) (kept' : Kept setup key mine w')
    (status : Status) : (w.listed status).filter (ofTenant key) = (w'.listed status).filter (ofTenant key) := by
  rw [listed_own kept, listed_own kept', agree.jobs]

/-- The others leave the tenant's jobs and records their places in what the listings read. -/
structure Undisplaced (setup : Setup Value Rank) (key : String) (w : World Value) : Prop where
  listed : setup.workerThread = true → ∀ status, Roomy (ofTenant key) 50 (w.listed status)
  recorded : ∀ name, HistoryRoom key name w

/-- A tenant is answered the same in both worlds; what it adds or removes as a repeated job is the same. -/
structure SameAnswers (setup : Setup Value Rank) (key : String) (mine : String → Bool) (w w' : World Value) : Prop where
  listJobs : listJobs setup (tenant key) w = listJobs setup (tenant key) w'
  history : ∀ name, getJobHistory (tenant key) name w = getJobHistory (tenant key) name w'
  getJob : ∀ id, mine id = true → getJob setup (tenant key) id w = getJob setup (tenant key) id w'
  removeJob : ∀ name id isRepeat, mine id = true ∨ isRepeat = some true →
    (removeJob setup (tenant key) name id isRepeat w).1 = (removeJob setup (tenant key) name id isRepeat w').1
  scheduler : ∀ name, w.schedulers.lookup (schedulerId setup (tenant key) name) =
    w'.schedulers.lookup (schedulerId setup (tenant key) name)

theorem listed_iff (agree : Agree setup key mine w w') (kept : Kept setup key mine w) (kept' : Kept setup key mine w')
    (room : setup.workerThread = true → ∀ status, Roomy (ofTenant key) 50 (w.listed status)) :
    JobControl.listJobs setup (tenant key) w = JobControl.listJobs setup (tenant key) w' ↔
      (setup.workerThread = true → ∀ status, Roomy (ofTenant key) 50 (w'.listed status)) := by
  by_cases multi : setup.workerThread = true
  · rw [list_windows w multi, list_windows w' multi, Except.ok.injEq, windows_iff]
    have whole : ∀ status, w.window key status = ((w'.listed status).filter (ofTenant key)).take 50 := by
      intro status
      rw [← agree.listed kept kept' status]
      exact window_iff.mpr (room multi status)
    constructor
    · intro same _ status
      exact window_iff.mp ((same status).symm.trans (whole status))
    · intro room' status
      exact (whole status).trans (window_iff.mpr (room' multi status)).symm
  · rw [list_single w (by simpa using multi), list_single w' (by simpa using multi)]
    simp [multi]

theorem history_iff (agree : Agree setup key mine w w') (kept : Kept setup key mine w) (kept' : Kept setup key mine w')
    {name : String} (room : HistoryRoom key name w) :
    getJobHistory (tenant key) name w = getJobHistory (tenant key) name w' ↔ HistoryRoom key name w' := by
  rw [(history_room_iff (kept.jobinfo name)).mpr room, agree.recordable name]
  constructor
  · intro same
    exact (history_room_iff (kept'.jobinfo name)).mp same.symm
  · intro room'
    exact ((history_room_iff (kept'.jobinfo name)).mpr room').symm

theorem same_answers_iff (agree : Agree setup key mine w w') (kept : Kept setup key mine w)
    (kept' : Kept setup key mine w') (room : Undisplaced setup key w) :
    SameAnswers setup key mine w w' ↔ Undisplaced setup key w' := by
  constructor
  · intro same
    exact ⟨(listed_iff agree kept kept' room.listed).mp same.listJobs,
      fun name => (history_iff agree kept kept' (room.recorded name)).mp (same.history name)⟩
  · intro room'
    exact ⟨(listed_iff agree kept kept' room.listed).mpr room'.listed,
      fun name => (history_iff agree kept kept' (room.recorded name)).mpr (room'.recorded name),
      fun _ isMine => agree.getJob isMine, fun name _ _ isMine => agree.removed name isMine, agree.schedulers⟩

end Answers

/-! The tenant with the queue for itself. -/
section Alone

variable {Value Rank : Type} {setup : Setup Value Rank} {key : String} {mine : String → Bool}
  {w : World Value}

structure Alone (key : String) (mine : String → Bool) (w : World Value) : Prop where
  jobs : ∀ entry ∈ w.jobs, mine entry.1.id = true
  saved : ∀ name, ∀ item ∈ w.saved name, item.ofTenant key = true

theorem start_alone : Alone key mine (start Value) := by
  constructor <;> simp [start]

theorem Alone.drop (alone : Alone key mine w) (id : String) : Alone key mine (w.drop id) where
  jobs := fun entry member => alone.jobs entry (List.mem_of_mem_filter member)
  saved := alone.saved

theorem Alone.schedulers (alone : Alone key mine w) (schedulers : PlainObject.Table (Scheduler Value)) :
    Alone key mine { w with schedulers := schedulers } := ⟨alone.jobs, alone.saved⟩

theorem Alone.saveJobInfo (alone : Alone key mine w) {job : Job Value} (owns : ownsJob (tenant key) job.data = true)
    (state : String) : Alone key mine (w.saveJobInfoToRedis job state) where
  jobs := alone.jobs
  saved := by
    intro name item member
    by_cases same : name = job.name
    · subst same
      simp only [World.saveJobInfoToRedis, Function.update_self] at member
      rcases List.mem_cons.mp member with rfl | old
      · exact owns
      · exact alone.saved _ item old
    · simp only [World.saveJobInfoToRedis, Function.update_of_ne same] at member
      exact alone.saved name item member

theorem Alone.removeJob (alone : Alone key mine w) (name : Option String) (jobID : String) (isRepeat : Option Bool) :
    Alone key mine (removeJob setup (tenant key) name jobID isRepeat w).2 := by
  by_cases bad : setup.workerThread = false ∨ name = none ∨ isRepeat = none
  · rw [removed_none bad]
    exact alone
  · simp only [not_or, Bool.not_eq_false] at bad
    obtain ⟨multi, hasName, hasFlag⟩ := bad
    obtain ⟨name, rfl⟩ := Option.ne_none_iff_exists'.mp hasName
    obtain ⟨isRepeat, rfl⟩ := Option.ne_none_iff_exists'.mp hasFlag
    cases isRepeat with
    | true =>
        rw [remove_repeat key name jobID w multi]
        exact alone.schedulers _
    | false =>
        rcases removed_own multi with same | ⟨dropped, -⟩
        · rw [same]
          exact alone
        · rw [dropped]
          exact alone.drop jobID

variable [LinearOrder Rank]

theorem Alone.put (alone : Alone key mine w) {entry : Job Value × Status} (isMine : mine entry.1.id = true) :
    Alone key mine (w.put setup entry) where
  jobs := by
    intro other member
    rcases (List.mem_orderedInsert _).mp member with rfl | old
    · exact isMine
    · exact alone.jobs other (List.mem_of_mem_filter old)
  saved := alone.saved

theorem Alone.addJob (alone : Alone key mine w) {auth : AuthCtx} {id : String} (isMine : mine id = true)
    (jobOpts : Option (JobOpts Value)) (rest : Value) (status : Status) :
    Alone key mine (addJob setup auth jobOpts rest id status w).2 := by
  unfold JobControl.addJob
  split
  · exact alone
  · split
    · exact alone
    · split
      · exact alone
      · exact alone
      · exact alone.schedulers _
      · exact alone.put isMine

theorem Alone.step (alone : Alone key mine w) (kept : Kept setup key mine w) {e : Event Value}
    (legal : e.Legal setup key mine) (own : e.own key mine = true) : Alone key mine (w.step setup e) := by
  cases e with
  | put job status => exact alone.put own
  | drop id => exact alone.drop id
  | save id state =>
      unfold World.step
      dsimp only
      split
      · exact alone
      · rename_i entry found
        obtain ⟨member, -⟩ := find_mem found
        refine alone.saveJobInfo ?_ state
        rw [← kept.owned entry member]
        exact alone.jobs entry member
  | addJob auth jobOpts rest id status =>
      obtain rfl : auth = tenant key := by simpa [Event.own] using own
      rcases legal with ⟨-, isMine⟩ | ⟨other, isAdmin, same, differs, -⟩
      · exact alone.addJob isMine jobOpts rest status
      · obtain ⟨isKey, -⟩ : key = other ∧ false = isAdmin := by simpa [tenant] using same
        exact absurd (by rw [isKey]) differs
  | removeJob auth name jobID isRepeat =>
      obtain rfl : auth = tenant key := by simpa [Event.own] using own
      exact alone.removeJob name jobID isRepeat

theorem Alone.run (alone : Alone key mine w) (kept : Kept setup key mine w) {events : List (Event Value)}
    (legal : ∀ e ∈ events, e.Legal setup key mine) (own : ∀ e ∈ events, e.own key mine = true) :
    Alone key mine (w.run setup events) := by
  induction events generalizing w with
  | nil => exact alone
  | cons e rest ih =>
      have isLegal := legal e (List.mem_cons_self ..)
      have step := alone.step kept isLegal (own e (List.mem_cons_self ..))
      exact ih step (kept.step isLegal) (fun other member => legal other (List.mem_cons_of_mem _ member))
        fun other member => own other (List.mem_cons_of_mem _ member)

theorem Alone.undisplaced (alone : Alone key mine w) (kept : Kept setup key mine w) : Undisplaced setup key w where
  listed := by
    intro _ status
    refine roomy_own fun entry member => ?_
    have isJob : entry ∈ w.jobs := List.mem_of_mem_filter member
    rw [ofTenant, ← kept.owned entry isJob]
    exact alone.jobs entry isJob
  recorded := by
    intro name
    refine Or.inr fun item member => ⟨item, ?_, rfl⟩
    -- Nothing but the tenant's is in the list, which is trimmed as the tenant's own would be.
    have all : (w.saved name).filter (Record.ofTenant key) = w.saved name :=
      List.filter_eq_self.mpr (alone.saved name)
    rw [World.recordable, all, ← kept.jobinfo name] at member
    have isSaved : item ∈ w.saved name := by
      rw [kept.jobinfo name] at member
      exact List.mem_of_mem_take member
    exact List.mem_filter.mpr ⟨member, alone.saved name item isSaved⟩

end Alone

/-! Runs that differ in the others' jobs only. -/
section Tenants

variable {Value Rank : Type} [LinearOrder Rank] {setup : Setup Value Rank} {key : String} {mine : String → Bool}

/-- A tenant is answered as if it were alone exactly in the worlds where the others leave it room, and two runs with
the same steps of its own answer it the same as soon as both do. -/
theorem tenants_isolated_iff {events events' : List (Event Value)} (legal : ∀ e ∈ events, e.Legal setup key mine)
    (legal' : ∀ e ∈ events', e.Legal setup key mine)
    (same : events.filter (fun e => e.own key mine) = events'.filter fun e => e.own key mine) :
    (SameAnswers setup key mine ((start Value).run setup (events.filter fun e => e.own key mine))
        ((start Value).run setup events) ↔ Undisplaced setup key ((start Value).run setup events)) ∧
      (Undisplaced setup key ((start Value).run setup events) →
        (SameAnswers setup key mine ((start Value).run setup events) ((start Value).run setup events') ↔
          Undisplaced setup key ((start Value).run setup events'))) := by
  have start : Kept setup key mine (start Value) := start_kept
  have kept := start.run legal
  have kept' := start.run legal'
  have agree := run_own Agree.rfl start_kept start_kept legal
  have agree' := run_own Agree.rfl start_kept start_kept legal'
  have ownLegal : ∀ e ∈ events.filter (fun e => e.own key mine), e.Legal setup key mine :=
    fun e member => legal e (List.mem_of_mem_filter member)
  have ownKept := start.run ownLegal
  have alone := Alone.run start_alone start_kept ownLegal fun e member => (List.mem_filter.mp member).2
  constructor
  · exact same_answers_iff agree.symm ownKept kept (alone.undisplaced ownKept)
  · intro room
    rw [← same] at agree'
    exact same_answers_iff (agree.trans agree'.symm) kept kept' room

/-- Two keys whose digests differ, and a queue that has bob's jobs before alice's. -/
def smallSetup : Setup Unit Nat where
  workerThread := true
  digest := fun appKey => if appKey = "alice" then "2bd806c97f0e00af" else "81b637d8fcd2c6da"
  digest_length := fun appKey => by split <;> decide
  rank := fun entry => if ownsJob (tenant "alice") entry.1.data then 1 else 0
  removal := fun _ => none

def report (key id : String) : Event Unit := .addJob (tenant key) (some ⟨some "report", none, ()⟩) () id .waiting

def aliceReports : List (Event Unit) := [report "alice" "1"]

def bobReports : List (Event Unit) := (List.range 50).map fun count => report "bob" (toString (count + 2))

theorem bob_reports_apart {e : Event Unit} (member : e ∈ bobReports) :
    e.Legal smallSetup "alice" (fun id => id = "1") ∧ e.own "alice" (fun id => id = "1") = false := by
  have ids : ∀ count < 50, ¬ toString (count + 2) = "1" := by decide +kernel
  obtain ⟨count, below, rfl⟩ := List.mem_map.mp member
  have fresh := ids count (List.mem_range.mp below)
  refine ⟨Or.inr ⟨"bob", false, rfl, by decide, by simpa using fresh⟩, ?_⟩
  simp [Event.own, report, tenant]

/-- Fifty waiting jobs of bob's and alice no longer finds hers in the list. -/
theorem crowded_listing :
    ¬ ∀ events events' : List (Event Unit), (∀ e ∈ events, e.Legal smallSetup "alice" fun id => id = "1") →
      (∀ e ∈ events', e.Legal smallSetup "alice" fun id => id = "1") →
      (events.filter fun e => e.own "alice" fun id => id = "1") = (events'.filter fun e => e.own "alice" fun id => id = "1") →
      SameAnswers smallSetup "alice" (fun id => id = "1") ((start Unit).run smallSetup events)
        ((start Unit).run smallSetup events') := by
  intro isolated
  have legal : ∀ e ∈ aliceReports, e.Legal smallSetup "alice" fun id => id = "1" := by
    intro e member
    obtain rfl := List.mem_singleton.mp member
    exact Or.inl ⟨rfl, rfl⟩
  have same := isolated aliceReports (aliceReports ++ bobReports) legal
    (fun e member => (List.mem_append.mp member).elim (legal e) fun others => (bob_reports_apart others).1)
    (by
      have none : (bobReports.filter fun e => e.own "alice" fun id => id = "1") = [] :=
        List.filter_eq_nil_iff.mpr fun e member => by simp [(bob_reports_apart member).2]
      rw [List.filter_append, none, List.append_nil])
  have listed : (listJobs smallSetup (tenant "alice") ((start Unit).run smallSetup aliceReports)).toOption.map List.length =
      some 1 := by decide +kernel
  have crowded : (listJobs smallSetup (tenant "alice")
      ((start Unit).run smallSetup (aliceReports ++ bobReports))).toOption.map List.length = some 0 := by decide +kernel
  rw [same.listJobs, crowded] at listed
  cases listed

/-- One job of bob's leaves alice the room she needs. -/
theorem alice_keeps_her_listing :
    SameAnswers smallSetup "alice" (fun id => id = "1") ((start Unit).run smallSetup aliceReports)
      ((start Unit).run smallSetup (aliceReports ++ [report "bob" "2"])) := by
  have legal : ∀ e ∈ aliceReports ++ [report "bob" "2"], e.Legal smallSetup "alice" fun id => id = "1" := by
    intro e member
    rcases List.mem_append.mp member with own | others
    · obtain rfl := List.mem_singleton.mp own
      exact Or.inl ⟨rfl, rfl⟩
    · obtain rfl := List.mem_singleton.mp others
      exact Or.inr ⟨"bob", false, rfl, by decide, rfl⟩
  have filtered : (aliceReports ++ [report "bob" "2"]).filter (fun e => e.own "alice" fun id => id = "1") = aliceReports := rfl
  have answered := (tenants_isolated_iff legal legal rfl).1
  rw [filtered] at answered
  refine answered.mpr ⟨fun _ status => Or.inr ?_, fun name => Or.inr ?_⟩
  · cases status <;> exact fun x member => by cases member
  · intro item member
    cases member

end Tenants

end Countinghouse.JobControl
