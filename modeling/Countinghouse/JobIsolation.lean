import Countinghouse.JobControl
import Countinghouse.SharedWindow

/-!
What a tenant gets to see of its own jobs, whatever the others have in the queue. Two runs that
differ in the others' jobs only end in worlds that agree on the tenant's own. The requests for
one job and for a repeated job go by that; the two listings read a window of what all share.
-/

namespace Countinghouse.JobControl

open PlainObject SharedWindow

/-! Runs with the same jobs of one tenant. -/
section Runs

variable {Value Rank : Type} (setup : Setup Value Rank)

/-- The tenant, who is no admin. -/
def tenant (key : String) : AuthCtx := .of (some key) false

/-- `mine` has the ids of the tenant's jobs. -/
def Event.own (key : String) (mine : String → Bool) : Event Value → Bool
  | .put job _ => mine job.id
  | .drop id | .save id _ => mine id
  | .addJob auth _ _ _ _ | .removeJob auth _ _ _ => auth = tenant key

/-- The queue has an id for one job only. Others, whose keys have other digests, add jobs of their own and remove none
but their own. -/
def Event.Legal (key : String) (mine : String → Bool) : Event Value → Prop
  | .put job _ => mine job.id = ownsJob (tenant key) job.data
  | .drop _ | .save _ _ => True
  | .addJob auth _ _ id _ =>
      (auth = tenant key ∧ mine id = true) ∨ ∃ other isAdmin, auth = .of (some other) isAdmin ∧
        setup.digest other ≠ setup.digest key ∧ mine id = false
  | .removeJob auth _ _ _ => auth = tenant key ∨ ∃ other, auth = tenant other ∧ setup.digest other ≠ setup.digest key

/-- The worlds have the same of the tenant's. -/
structure Agree (key : String) (mine : String → Bool) (w w' : World Value) : Prop where
  jobs : (w.jobs.filter fun entry => mine entry.1.id) = w'.jobs.filter fun entry => mine entry.1.id
  schedulers : ∀ name, w.schedulers.lookup (schedulerId setup (tenant key) name) =
    w'.schedulers.lookup (schedulerId setup (tenant key) name)
  saved : ∀ name, ((w.saved name).filter fun item => ownsJob (tenant key) item.job.data) =
    (w'.saved name).filter fun item => ownsJob (tenant key) item.job.data

variable {setup} {key : String} {mine : String → Bool} {w w' w'' : World Value}

theorem Agree.rfl : Agree setup key mine w w := ⟨Eq.refl _, fun _ => Eq.refl _, fun _ => Eq.refl _⟩

theorem Agree.symm (agree : Agree setup key mine w w') : Agree setup key mine w' w :=
  ⟨agree.jobs.symm, fun name => (agree.schedulers name).symm, fun name => (agree.saved name).symm⟩

theorem Agree.trans (agree : Agree setup key mine w w') (more : Agree setup key mine w' w'') :
    Agree setup key mine w w'' :=
  ⟨agree.jobs.trans more.jobs, fun name => (agree.schedulers name).trans (more.schedulers name),
    fun name => (agree.saved name).trans (more.saved name)⟩

theorem find_mine (w : World Value) {id : String} (isMine : mine id = true) :
    w.find id = (w.jobs.filter fun entry => mine entry.1.id).find? fun entry => entry.1.id = id := by
  rw [List.find?_filter]
  unfold World.find
  congr 1
  funext entry
  by_cases same : entry.1.id = id
  · simp [same, isMine]
  · simp [same]

theorem Agree.find (agree : Agree setup key mine w w') {id : String} (isMine : mine id = true) : w.find id = w'.find id := by
  rw [find_mine w isMine, find_mine w' isMine, agree.jobs]

theorem find_mem {id : String} {entry : Job Value × Status} (found : w.find id = some entry) :
    entry ∈ w.jobs ∧ entry.1.id = id :=
  ⟨List.mem_of_find?_eq_some found, by simpa using List.find?_some found⟩

/-- The tenant's jobs are those of its ids. -/
def Owned (key : String) (mine : String → Bool) (w : World Value) : Prop :=
  ∀ entry ∈ w.jobs, mine entry.1.id = ownsJob (tenant key) entry.1.data

theorem Agree.drop (agree : Agree setup key mine w w') (id : String) : Agree setup key mine (w.drop id) (w'.drop id) where
  jobs := by
    simp only [World.drop]
    rw [List.filter_comm, agree.jobs, List.filter_comm]
  schedulers := agree.schedulers
  saved := agree.saved

theorem agree_drop_other {id : String} (others : mine id = false) : Agree setup key mine w (w.drop id) where
  jobs := by
    simp only [World.drop, List.filter_filter]
    refine List.filter_congr fun entry _ => ?_
    by_cases isMine : mine entry.1.id = true
    · have differs : entry.1.id ≠ id := fun same => by simp [same, others] at isMine
      simp [isMine, differs]
    · simp [isMine]
  schedulers := fun _ => Eq.refl _
  saved := fun _ => Eq.refl _

theorem Agree.saveJobInfo (agree : Agree setup key mine w w') (job : Job Value) (state : String) :
    Agree setup key mine (w.saveJobInfoToRedis job state) (w'.saveJobInfoToRedis job state) where
  jobs := agree.jobs
  schedulers := agree.schedulers
  saved := by
    intro name
    by_cases same : name = job.name
    · subst same
      simp [World.saveJobInfoToRedis, List.filter_cons, agree.saved]
    · simpa [World.saveJobInfoToRedis, same] using agree.saved name

theorem agree_save_other {job : Job Value} (others : ownsJob (tenant key) job.data = false) (state : String) :
    Agree setup key mine w (w.saveJobInfoToRedis job state) where
  jobs := Eq.refl _
  schedulers := fun _ => Eq.refl _
  saved := by
    intro name
    by_cases same : name = job.name
    · subst same
      simp [World.saveJobInfoToRedis, others]
    · simp [World.saveJobInfoToRedis, same]

/-- Keys with other digests have other schedulers, whatever the names. -/
theorem schedulerId_apart {other : String} (differs : setup.digest other ≠ setup.digest key) (isAdmin : Bool)
    (name name' : String) :
    schedulerId setup (tenant key) name ≠ schedulerId setup (.of (some other) isAdmin) name' := by
  intro same
  simp only [schedulerId, tenant, String.append_assoc] at same
  have lists := congrArg String.toList same
  simp only [String.toList_append] at lists
  have lengths : (setup.digest key).toList.length = (setup.digest other).toList.length := by
    rw [String.length_toList, String.length_toList, setup.digest_length, setup.digest_length]
  exact differs (String.toList_inj.mp (List.append_inj lists lengths).1).symm

theorem Agree.upsert (agree : Agree setup key mine w w') (id : String) (scheduler : Scheduler Value) :
    Agree setup key mine { w with schedulers := setKey w.schedulers id scheduler }
      { w' with schedulers := setKey w'.schedulers id scheduler } where
  jobs := agree.jobs
  schedulers := fun name => by simp only [lookup_setKey, agree.schedulers]
  saved := agree.saved

theorem Agree.unschedule (agree : Agree setup key mine w w') (id : String) :
    Agree setup key mine (removeJobScheduler w id).2 (removeJobScheduler w' id).2 where
  jobs := agree.jobs
  schedulers := fun name => by simp only [removeJobScheduler, lookup_deleteKey, agree.schedulers]
  saved := agree.saved

theorem agree_upsert_other {id : String} (others : ∀ name, schedulerId setup (tenant key) name ≠ id)
    (scheduler : Scheduler Value) :
    Agree setup key mine w { w with schedulers := setKey w.schedulers id scheduler } where
  jobs := Eq.refl _
  schedulers := fun name => by rw [lookup_setKey, if_neg (others name)]
  saved := fun _ => Eq.refl _

theorem agree_unschedule_other {id : String} (others : ∀ name, schedulerId setup (tenant key) name ≠ id) :
    Agree setup key mine w (removeJobScheduler w id).2 where
  jobs := Eq.refl _
  schedulers := fun name => by
    simp only [removeJobScheduler]
    rw [lookup_deleteKey, if_neg (others name)]
  saved := fun _ => Eq.refl _

theorem remove_repeat (asking name jobID : String) (w : World Value) (multi : setup.workerThread = true) :
    removeJob setup (tenant asking) (some name) jobID (some true) w =
      (if (removeJobScheduler w (schedulerId setup (tenant asking) name)).1 then .ok ()
        else .error (.REMOVE_JOB_ERROR "unknown job"),
        (removeJobScheduler w (schedulerId setup (tenant asking) name)).2) := by
  unfold removeJob
  rw [if_neg (by simp [multi]), if_neg (by simp [tenant, AuthCtx.anonymous])]
  simp only [show (tenant asking).isAdmin = false from rfl, Bool.false_and, Bool.and_false, Bool.false_eq_true, if_false]

theorem remove_one (asking name jobID : String) (w : World Value) (multi : setup.workerThread = true) :
    removeJob setup (tenant asking) (some name) jobID (some false) w =
      match w.find jobID with
      | none => (.error (.REMOVE_JOB_ERROR "unknown job"), w)
      | some entry =>
          if !ownsJob (tenant asking) entry.1.data then (.error .JOB_ACCESS_DENIED, w)
          else
            match setup.removal entry with
            | some message => (.error (.REMOVE_JOB_ERROR message), w)
            | none => (.ok (), w.drop jobID) := by
  unfold removeJob
  rw [if_neg (by simp [multi]), if_neg (by simp [tenant, AuthCtx.anonymous])]
  rfl

/-- A tenant's request for one job takes that job away, if it is its own, and nothing else. -/
theorem removed_own {asking name jobID : String} (multi : setup.workerThread = true) :
    (removeJob setup (tenant asking) (some name) jobID (some false) w).2 = w ∨
      (removeJob setup (tenant asking) (some name) jobID (some false) w).2 = w.drop jobID ∧
        ∃ entry, w.find jobID = some entry ∧ ownsJob (tenant asking) entry.1.data = true := by
  rw [remove_one asking name jobID w multi]
  cases w.find jobID with
  | none => exact Or.inl rfl
  | some entry =>
      dsimp only
      split
      · exact Or.inl rfl
      · rename_i owns
        split
        · exact Or.inl rfl
        · exact Or.inr ⟨rfl, entry, rfl, by simpa using owns⟩

/-- Without threads, without a name or without a flag nothing is removed. -/
theorem removed_none {auth : AuthCtx} {name : Option String} {jobID : String} {isRepeat : Option Bool}
    (bad : setup.workerThread = false ∨ name = none ∨ isRepeat = none) :
    (removeJob setup auth name jobID isRepeat w).2 = w := by
  unfold removeJob
  split
  · rfl
  · split
    · rfl
    · split
      · rfl
      · rfl
      · simp_all
      · simp_all

end Runs

/-! Two runs side by side. -/
section Pairs

variable {Value Rank : Type} [LinearOrder Rank] {setup : Setup Value Rank} {key : String} {mine : String → Bool}
  {w w' : World Value}

structure Kept (setup : Setup Value Rank) (key : String) (mine : String → Bool) (w : World Value) : Prop where
  sorted : w.jobs.Pairwise (Before setup)
  owned : Owned key mine w
  jobinfo : ∀ name, w.jobinfo name = (w.saved name).take 201

theorem start_kept : Kept setup key mine (start Value) := by
  constructor <;> simp [start, Owned]

instance : IsTrans (Job Value × Status) (Before setup) := ⟨fun _ _ _ first second => le_trans first second⟩

instance : Std.Total (Before setup) := ⟨fun _ _ => le_total _ _⟩

/-- What a `put` makes of the tenant's jobs. -/
theorem put_mine (kept : Kept setup key mine w) (entry : Job Value × Status) :
    ((w.put setup entry).jobs.filter fun entry => mine entry.1.id) =
      if mine entry.1.id then
        ((w.jobs.filter fun entry => mine entry.1.id).filter fun other => other.1.id ≠ entry.1.id).orderedInsert
          (Before setup) entry
      else w.jobs.filter fun entry => mine entry.1.id := by
  have sorted : (w.jobs.filter fun other => other.1.id ≠ entry.1.id).Pairwise (Before setup) := kept.sorted.filter _
  simp only [World.put]
  rw [filter_orderedInsert (Before setup) _ entry sorted]
  split
  · rw [List.filter_comm]
  · rename_i others
    rw [List.filter_filter]
    refine List.filter_congr fun other _ => ?_
    by_cases isMine : mine other.1.id = true
    · have differs : other.1.id ≠ entry.1.id := fun same => others (same ▸ isMine)
      simp [isMine, differs]
    · simp [isMine]

theorem Agree.put (agree : Agree setup key mine w w') (kept : Kept setup key mine w) (kept' : Kept setup key mine w')
    (entry : Job Value × Status) : Agree setup key mine (w.put setup entry) (w'.put setup entry) where
  jobs := by rw [put_mine kept, put_mine kept', agree.jobs]
  schedulers := agree.schedulers
  saved := agree.saved

theorem agree_put_other (kept : Kept setup key mine w) {entry : Job Value × Status} (others : mine entry.1.id = false) :
    Agree setup key mine w (w.put setup entry) where
  jobs := by simp [put_mine kept, others]
  schedulers := fun _ => Eq.refl _
  saved := fun _ => Eq.refl _

theorem Kept.put (kept : Kept setup key mine w) {entry : Job Value × Status}
    (owned : mine entry.1.id = ownsJob (tenant key) entry.1.data) : Kept setup key mine (w.put setup entry) where
  sorted := List.Pairwise.orderedInsert _ _ (kept.sorted.filter _)
  owned := by
    intro other member
    rcases (List.mem_orderedInsert _).mp member with rfl | old
    · exact owned
    · exact kept.owned other (List.mem_of_mem_filter old)
  jobinfo := kept.jobinfo

theorem Kept.drop (kept : Kept setup key mine w) (id : String) : Kept setup key mine (w.drop id) where
  sorted := kept.sorted.filter _
  owned := fun entry member => kept.owned entry (List.mem_of_mem_filter member)
  jobinfo := kept.jobinfo

theorem Kept.saveJobInfo (kept : Kept setup key mine w) (job : Job Value) (state : String) :
    Kept setup key mine (w.saveJobInfoToRedis job state) where
  sorted := kept.sorted
  owned := kept.owned
  jobinfo := by
    intro name
    by_cases same : name = job.name
    · subst same
      simp [World.saveJobInfoToRedis, kept.jobinfo, List.take_take]
    · simpa [World.saveJobInfoToRedis, same] using kept.jobinfo name

theorem Kept.schedulers (kept : Kept setup key mine w) (schedulers : Table (Scheduler Value)) :
    Kept setup key mine { w with schedulers := schedulers } := ⟨kept.sorted, kept.owned, kept.jobinfo⟩

theorem Kept.addJob (kept : Kept setup key mine w) {auth : AuthCtx} {jobOpts : Option (JobOpts Value)} {rest : Value}
    {id : String} {status : Status} (legal : (Event.addJob auth jobOpts rest id status).Legal setup key mine) :
    Kept setup key mine (addJob setup auth jobOpts rest id status w).2 := by
  unfold JobControl.addJob
  split
  · exact kept
  · split
    · exact kept
    · split
      · exact kept
      · exact kept
      · exact kept.schedulers _
      · refine kept.put ?_
        rcases legal with ⟨rfl, isMine⟩ | ⟨other, isAdmin, rfl, differs, others⟩
        · simp [isMine, ownsJob, tenant, AuthCtx.owner]
        · have apart : other ≠ key := fun same => differs (by rw [same])
          simp [others, ownsJob, tenant, AuthCtx.owner, apart]

theorem Kept.removeJob (kept : Kept setup key mine w) (auth : AuthCtx) (name : Option String) (jobID : String)
    (isRepeat : Option Bool) : Kept setup key mine (removeJob setup auth name jobID isRepeat w).2 := by
  unfold JobControl.removeJob
  split
  · exact kept
  · split
    · exact kept
    · split
      · exact kept
      · exact kept
      · split
        · exact kept
        · split
          · exact kept
          · split
            · exact kept
            · exact kept.drop jobID
      · dsimp only
        split
        · exact (kept.schedulers _).schedulers _
        · exact kept.schedulers _

theorem Kept.step (kept : Kept setup key mine w) {e : Event Value} (legal : e.Legal setup key mine) :
    Kept setup key mine (w.step setup e) := by
  cases e with
  | put job status => exact kept.put legal
  | drop id => exact kept.drop id
  | save id state =>
      unfold World.step
      dsimp only
      split
      · exact kept
      · exact kept.saveJobInfo _ _
  | addJob auth jobOpts rest id status => exact kept.addJob legal
  | removeJob auth name jobID isRepeat => exact kept.removeJob auth name jobID isRepeat

theorem Kept.run (kept : Kept setup key mine w) {events : List (Event Value)} (legal : ∀ e ∈ events, e.Legal setup key mine) :
    Kept setup key mine (w.run setup events) := by
  induction events generalizing w with
  | nil => exact kept
  | cons e rest ih =>
      exact ih (kept.step (legal e (List.mem_cons_self ..))) fun other member => legal other (List.mem_cons_of_mem _ member)

theorem Agree.removeJob (agree : Agree setup key mine w w') (kept : Kept setup key mine w) (kept' : Kept setup key mine w')
    (name : Option String) (jobID : String) (isRepeat : Option Bool) :
    Agree setup key mine (removeJob setup (tenant key) name jobID isRepeat w).2
      (removeJob setup (tenant key) name jobID isRepeat w').2 := by
  by_cases bad : setup.workerThread = false ∨ name = none ∨ isRepeat = none
  · rw [removed_none bad, removed_none bad]
    exact agree
  · simp only [not_or, Bool.not_eq_false] at bad
    obtain ⟨multi, hasName, hasFlag⟩ := bad
    obtain ⟨name, rfl⟩ := Option.ne_none_iff_exists'.mp hasName
    obtain ⟨isRepeat, rfl⟩ := Option.ne_none_iff_exists'.mp hasFlag
    cases isRepeat with
    | true =>
        rw [remove_repeat key name jobID w multi, remove_repeat key name jobID w' multi]
        exact agree.unschedule _
    | false =>
        by_cases isMine : mine jobID = true
        · rw [remove_one key name jobID w multi, remove_one key name jobID w' multi, agree.find isMine]
          cases w'.find jobID with
          | none => exact agree
          | some entry =>
              dsimp only
              split
              · exact agree
              · split
                · exact agree
                · exact agree.drop jobID
        · have untouched : ∀ v : World Value, Kept setup key mine v →
              (JobControl.removeJob setup (tenant key) (some name) jobID (some false) v).2 = v := by
            intro v kept
            rcases removed_own multi with same | ⟨-, entry, found, owns⟩
            · exact same
            · obtain ⟨member, isId⟩ := find_mem found
              rw [← kept.owned entry member, isId] at owns
              exact absurd owns isMine
          rw [untouched w kept, untouched w' kept']
          exact agree

theorem agree_remove_other (kept : Kept setup key mine w) {other : String}
    (differs : setup.digest other ≠ setup.digest key) (name : Option String) (jobID : String) (isRepeat : Option Bool) :
    Agree setup key mine w (removeJob setup (tenant other) name jobID isRepeat w).2 := by
  by_cases bad : setup.workerThread = false ∨ name = none ∨ isRepeat = none
  · rw [removed_none bad]
    exact Agree.rfl
  · simp only [not_or, Bool.not_eq_false] at bad
    obtain ⟨multi, hasName, hasFlag⟩ := bad
    obtain ⟨name, rfl⟩ := Option.ne_none_iff_exists'.mp hasName
    obtain ⟨isRepeat, rfl⟩ := Option.ne_none_iff_exists'.mp hasFlag
    cases isRepeat with
    | true =>
        rw [remove_repeat other name jobID w multi]
        exact agree_unschedule_other fun own => schedulerId_apart differs false own name
    | false =>
        rcases removed_own multi with same | ⟨dropped, entry, found, owns⟩
        · rw [same]
          exact Agree.rfl
        · obtain ⟨member, isId⟩ := find_mem found
          rw [dropped]
          refine agree_drop_other ?_
          rw [← isId, kept.owned entry member]
          have apart : other ≠ key := fun same => differs (by rw [same])
          simp only [ownsJob, tenant, Bool.false_or, decide_eq_true_eq] at owns ⊢
          simp [owns, apart]

/-- The tenant's own steps lead to the same. -/
theorem Agree.step (agree : Agree setup key mine w w') (kept : Kept setup key mine w) (kept' : Kept setup key mine w')
    {e : Event Value} (own : e.own key mine = true) : Agree setup key mine (w.step setup e) (w'.step setup e) := by
  cases e with
  | put job status => exact agree.put kept kept' (job, status)
  | drop id => exact agree.drop id
  | save id state =>
      unfold World.step
      dsimp only
      rw [agree.find own]
      split
      · exact agree
      · exact agree.saveJobInfo _ _
  | addJob auth jobOpts rest id status =>
      unfold World.step JobControl.addJob
      dsimp only
      split
      · exact agree
      · split
        · exact agree
        · split
          · exact agree
          · exact agree
          · exact agree.upsert _ _
          · exact agree.put kept kept' _
  | removeJob auth name jobID isRepeat =>
      obtain rfl : auth = tenant key := by simpa [Event.own] using own
      exact agree.removeJob kept kept' name jobID isRepeat

/-- The others' steps leave the tenant's as it is. -/
theorem agree_step_other (kept : Kept setup key mine w) {e : Event Value}
    (legal : e.Legal setup key mine) (others : e.own key mine = false) : Agree setup key mine w (w.step setup e) := by
  cases e with
  | put job status => exact agree_put_other kept others
  | drop id => exact agree_drop_other others
  | save id state =>
      unfold World.step
      dsimp only
      split
      · exact Agree.rfl
      · rename_i entry found
        obtain ⟨member, isId⟩ := find_mem found
        refine agree_save_other ?_ state
        rw [← kept.owned entry member, isId]
        exact others
  | addJob auth jobOpts rest id status =>
      rcases legal with ⟨isTenant, -⟩ | ⟨other, isAdmin, rfl, differs, notMine⟩
      · simp [Event.own, isTenant] at others
      · unfold World.step JobControl.addJob
        dsimp only
        split
        · exact Agree.rfl
        · split
          · exact Agree.rfl
          · split
            · exact Agree.rfl
            · exact Agree.rfl
            · exact agree_upsert_other (fun name => schedulerId_apart differs isAdmin name _) _
            · exact agree_put_other kept notMine
  | removeJob auth name jobID isRepeat =>
      rcases legal with isTenant | ⟨other, rfl, differs⟩
      · simp [Event.own, isTenant] at others
      · exact agree_remove_other kept differs name jobID isRepeat

/-- A run and its steps that are the tenant's own. -/
theorem run_own (agree : Agree setup key mine w w') (kept : Kept setup key mine w)
    (kept' : Kept setup key mine w') {events : List (Event Value)} (legal : ∀ e ∈ events, e.Legal setup key mine) :
    Agree setup key mine (w.run setup events) (w'.run setup (events.filter fun e => e.own key mine)) := by
  induction events generalizing w w' with
  | nil => exact agree
  | cons e rest ih =>
      have isLegal := legal e (List.mem_cons_self ..)
      have restLegal : ∀ other ∈ rest, other.Legal setup key mine := fun other member => legal other (List.mem_cons_of_mem _ member)
      by_cases own : e.own key mine = true
      · rw [List.filter_cons, if_pos own]
        exact ih (agree.step kept kept' own) (kept.step isLegal) (kept'.step isLegal) restLegal
      · rw [List.filter_cons, if_neg own]
        have still := agree_step_other kept isLegal (by simpa using own)
        exact ih (still.symm.trans agree) (kept.step isLegal) kept' restLegal

end Pairs

end Countinghouse.JobControl
