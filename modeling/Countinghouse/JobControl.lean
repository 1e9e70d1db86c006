import Mathlib.Data.List.Sort
import Countinghouse.PlainObject

/-!
Jobs: lib/job-control.js. One queue and one list of records for each job name serve all
tenants; each job carries the key that has added it.

The queue keeps its jobs in a fixed order, `rank`, and tells which jobs have a status and in
which order from `start` to `stop` of each. What it does with a job of its own accord (a repeated
job comes due, a worker takes it, it ends) is `put`: the job as it is then, with its new status.
The queue and Redis serve every request, and a request sees one state of them. Ids come from
the queue, none is a name of `Object.prototype`. `Value` is whatever is only handed on.
-/

namespace Countinghouse.JobControl

open PlainObject

/-! Jobs and who asks for them. -/
section Jobs

inductive Status where
  | waiting | active | delayed | completed | failed
  deriving DecidableEq

inductive AuthCtx where
  | internal
  | of (appKey : Option String) (isAdmin : Bool)
  deriving DecidableEq

inductive Refusal where
  | SYSTEM_ERROR_UNKNOWN_USER
  | JOB_ACCESS_DENIED
  | ADD_JOB_ERROR (message : String)
  | GET_JOB_ERROR (message : String)
  | REMOVE_JOB_ERROR (message : String)
  deriving DecidableEq

structure JobData (Value : Type) where
  apiKey : Option String
  rest : Value
  deriving DecidableEq

structure Job (Value : Type) where
  id : String
  name : String
  data : Option (JobData Value)
  rest : Value
  deriving DecidableEq

/-- An entry of a job name's list. -/
structure Record (Value : Type) where
  job : Job Value
  state : String

structure Repeat (Value : Type) where
  cron : Option Value
  every : Option Value
  limit : Option Value

structure JobOpts (Value : Type) where
  name : Option String
  repeats : Option (Repeat Value)
  rest : Value

structure RepeatOpts (Value : Type) where
  pattern : Option Value
  every : Option Value
  limit : Option Value
  deriving DecidableEq

structure Scheduler (Value : Type) where
  repeatOpts : RepeatOpts Value
  name : String
  data : JobData Value
  opts : Value
  deriving DecidableEq

/-- `digest` is the first 16 hex digits of a key's SHA-256, `removal` the error of job.remove(). -/
structure Setup (Value Rank : Type) where
  workerThread : Bool
  digest : String → String
  digest_length : ∀ appKey, (digest appKey).length = 16
  rank : Job Value × Status → Rank
  removal : Job Value × Status → Option String

variable {Value Rank : Type} (setup : Setup Value Rank)

def schedulerId : AuthCtx → String → String
  | .internal, name | .of none _, name => name
  | .of (some appKey) _, name => setup.digest appKey ++ ":" ++ name

def ownsJob : AuthCtx → Option (JobData Value) → Bool
  | .internal, _ => true
  | .of none _, _ => false
  | .of (some appKey) isAdmin, jobData => isAdmin || (jobData.bind JobData.apiKey) = some appKey

def denied : AuthCtx → Refusal
  | .of none _ => .SYSTEM_ERROR_UNKNOWN_USER
  | _ => .JOB_ACCESS_DENIED

def AuthCtx.anonymous : AuthCtx → Bool
  | .of none _ => true
  | _ => false

/-- `authCtx !== INTERNAL && authCtx.isAdmin === true` -/
def AuthCtx.isAdmin : AuthCtx → Bool
  | .internal => false
  | .of _ isAdmin => isAdmin

/-- `authCtx.appKey` as addJob records it. -/
def AuthCtx.owner : AuthCtx → Option String
  | .internal => none
  | .of appKey _ => appKey

end Jobs

/-! The queue and the records. -/
section Queue

variable {Value Rank : Type} [LinearOrder Rank] (setup : Setup Value Rank)

/-- `saved` is history: all records of a name that there ever were, the last first. -/
structure World (Value : Type) where
  jobs : List (Job Value × Status)
  schedulers : Table (Scheduler Value)
  jobinfo : String → List (Record Value)
  saved : String → List (Record Value)

def start (Value : Type) : World Value := ⟨[], [], fun _ => [], fun _ => []⟩

def Before (first second : Job Value × Status) : Prop := setup.rank first ≤ setup.rank second

instance : DecidableRel (Before setup) := fun _ _ => inferInstanceAs (Decidable (_ ≤ _))

def World.find (w : World Value) (id : String) : Option (Job Value × Status) :=
  w.jobs.find? fun entry => entry.1.id = id

def World.put (w : World Value) (entry : Job Value × Status) : World Value :=
  { w with jobs := (w.jobs.filter fun other => other.1.id ≠ entry.1.id).orderedInsert (Before setup) entry }

def World.drop (w : World Value) (id : String) : World Value :=
  { w with jobs := w.jobs.filter fun other => other.1.id ≠ id }

def World.listed (w : World Value) (status : Status) : List (Job Value × Status) :=
  w.jobs.filter fun entry => entry.2 = status

/-- `jobQueue.getJobs(types, start, stop, false)` -/
def World.getJobs (w : World Value) (types : List Status) (start stop : Nat) : List (Job Value × Status) :=
  types.flatMap fun status => ((w.listed status).drop start).take (stop + 1 - start)

/-- lpush and ltrim. -/
def World.saveJobInfoToRedis (w : World Value) (job : Job Value) (state : String) : World Value :=
  { w with
    jobinfo := Function.update w.jobinfo job.name ((⟨job, state⟩ :: w.jobinfo job.name).take 201)
    saved := Function.update w.saved job.name (⟨job, state⟩ :: w.saved job.name) }

end Queue

/-! The requests. -/
section Requests

variable {Value Rank : Type} [LinearOrder Rank] (setup : Setup Value Rank)

def multiThread : String := "countinghouse should be in multi-thread mode"

def repeatOpts (repeats : Repeat Value) : RepeatOpts Value :=
  match repeats.cron with
  | some cron => ⟨some cron, none, repeats.limit⟩
  | none => ⟨none, repeats.every, repeats.limit⟩

/-- `rest` has the device, the action and the input, `id` and `status` are the queue's. -/
def addJob (auth : AuthCtx) (jobOpts : Option (JobOpts Value)) (rest : Value) (id : String) (status : Status)
    (w : World Value) : Except Refusal String × World Value :=
  if !setup.workerThread then (.error (.ADD_JOB_ERROR multiThread), w)
  else if auth.anonymous then (.error (denied auth), w)
  else
    match jobOpts with
    | none => (.error (.ADD_JOB_ERROR "must have opts to add a job"), w)
    | some ⟨none, _, _⟩ => (.error (.ADD_JOB_ERROR "job must have a name"), w)
    | some ⟨some name, some repeats, opts⟩ =>
        let scheduler := ⟨repeatOpts repeats, name, ⟨auth.owner, rest⟩, opts⟩
        (.ok id, { w with schedulers := setKey w.schedulers (schedulerId setup auth name) scheduler })
    | some ⟨some name, none, opts⟩ => (.ok id, w.put setup (⟨id, name, some ⟨auth.owner, rest⟩, opts⟩, status))

def getJob (auth : AuthCtx) (id : String) (w : World Value) : Except Refusal (Job Value × Status) :=
  if !setup.workerThread then .error (.GET_JOB_ERROR multiThread)
  else
    match w.find id with
    | none => .error (.GET_JOB_ERROR "unknown job")
    | some entry => if ownsJob auth entry.1.data then .ok entry else .error (denied auth)

/-- The loop of getJobHistory over a name's list: `cap`, and the keys of `keyList`. -/
def recent (auth : AuthCtx) : Nat → List String → List (Record Value) → List (Record Value)
  | _, _, [] => []
  | cap, keyList, item :: rest =>
      if 20 ≤ cap then recent auth cap keyList rest
      else if !ownsJob auth item.job.data then recent auth cap keyList rest
      else if item.job.id ∈ keyList then recent auth cap keyList rest
      else item :: recent auth (cap + 1) (item.job.id :: keyList) rest

def getJobHistory (auth : AuthCtx) (name : String) (w : World Value) : Except Refusal (List (Record Value)) :=
  if auth.anonymous then .error (denied auth) else .ok (recent auth 0 [] (w.jobinfo name))

/-- `removed === true` for a scheduler with this id. -/
def removeJobScheduler (w : World Value) (id : String) : Bool × World Value :=
  ((w.schedulers.lookup id).isSome, { w with schedulers := deleteKey w.schedulers id })

def removeJob (auth : AuthCtx) (name : Option String) (jobID : String) (isRepeat : Option Bool) (w : World Value) :
    Except Refusal Unit × World Value :=
  if !setup.workerThread then (.error (.REMOVE_JOB_ERROR multiThread), w)
  else if auth.anonymous then (.error (denied auth), w)
  else
    match name, isRepeat with
    | none, _ => (.error (.REMOVE_JOB_ERROR "job must have a name"), w)
    | some _, none => (.error (.REMOVE_JOB_ERROR "must pass in isRepeat boolean flag"), w)
    | some _, some false =>
        match w.find jobID with
        | none => (.error (.REMOVE_JOB_ERROR "unknown job"), w)
        | some entry =>
            if !ownsJob auth entry.1.data then (.error (denied auth), w)
            else
              match setup.removal entry with
              | some message => (.error (.REMOVE_JOB_ERROR message), w)
              | none => (.ok (), w.drop jobID)
    | some name, some true =>
        let legacy := auth.isAdmin && schedulerId setup auth name ≠ name
        let own := removeJobScheduler w (schedulerId setup auth name)
        let last := if !own.1 && legacy then removeJobScheduler own.2 name else own
        (if last.1 then .ok () else .error (.REMOVE_JOB_ERROR "unknown job"), last.2)

def listJobs (auth : AuthCtx) (w : World Value) : Except Refusal (List (Job Value × Status)) :=
  if !setup.workerThread then .error (.GET_JOB_ERROR multiThread)
  else if auth.anonymous then .error (denied auth)
  else
    .ok ((w.getJobs [.waiting, .active, .delayed, .completed, .failed] 0 49).filter fun entry => ownsJob auth entry.1.data)

end Requests

/-! Runs. -/
section Runs

variable {Value Rank : Type} [LinearOrder Rank] (setup : Setup Value Rank)

inductive Event (Value : Type) where
  | put (job : Job Value) (status : Status)
  /-- The queue lets a job go. -/
  | drop (id : String)
  /-- One of the queue's events, `state` says which. -/
  | save (id state : String)
  | addJob (auth : AuthCtx) (jobOpts : Option (JobOpts Value)) (rest : Value) (id : String) (status : Status)
  | removeJob (auth : AuthCtx) (name : Option String) (jobID : String) (isRepeat : Option Bool)

def World.step (w : World Value) : Event Value → World Value
  | .put job status => w.put setup (job, status)
  | .drop id => w.drop id
  | .save id state =>
      match w.find id with
      | none => w
      | some entry => w.saveJobInfoToRedis entry.1 state
  | .addJob auth jobOpts rest id status => (addJob setup auth jobOpts rest id status w).2
  | .removeJob auth name jobID isRepeat => (removeJob setup auth name jobID isRepeat w).2

def World.run (w : World Value) (events : List (Event Value)) : World Value := events.foldl (World.step setup) w

end Runs

end Countinghouse.JobControl
