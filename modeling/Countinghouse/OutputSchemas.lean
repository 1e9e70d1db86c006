import Countinghouse.FileNamespace
import Countinghouse.JsonValues

/-!
The output schema of an action, as lib/mcp/gateway.js follows it. A tools/call fetches the schema in one round trip and
runs the action in another (handleToolsCall); a job is run, then stamped with the hash of the schema that is fetched after
it (stampOutputSchema), and read much later (doHandleTasksResult). The module may be reloaded between any two of these, and
the main thread hears of the new devices later still.

One action is followed, with any number of calls, tasks and reads of results at once. Nothing is modelled of a call but the
schemas and the output: who may call what is in ToolsCall.
-/

namespace Countinghouse.OutputSchemas

open RedisMetering (Json)
open JsonValues

/-! lib/mcp/output-schema-hash.js -/
section Hash

/-- What is left open: `JSON.stringify` of a text and of a number, SHA-256, and what Ajv makes of a schema. -/
structure Builtins where
  quote : String → String
  number : ℚ → String
  sha256 : String → String
  compile : Json → Option (Json → Bool)

variable (js : Builtins)

/-- Texts by their keys, as `sort` orders them. -/
def sortByKey (fields : List (String × String)) : List (String × String) :=
  fields.insertionSort fun a b => FileNamespace.textLe a.1 b.1 = true

mutual

def canonicalJSON : Json → String
  | .null => "null"
  | .bool value => if value then "true" else "false"
  | .number value => js.number value
  | .string text => js.quote text
  | .array items => "[" ++ ",".intercalate (canonicalItems items) ++ "]"
  | .object fields =>
      "\x7b" ++ ",".intercalate ((sortByKey (canonicalFields fields)).map fun field => js.quote field.1 ++ ":" ++ field.2) ++
        "\x7d"

def canonicalItems : List Json → List String
  | [] => []
  | item :: items => canonicalJSON item :: canonicalItems items

def canonicalFields : List (String × Json) → List (String × String)
  | [] => []
  | (key, value) :: fields => (key, canonicalJSON value) :: canonicalFields fields

end

def outputSchemaHash (schema : Json) : String := js.sha256 (canonicalJSON js schema)

end Hash

/-! The worker: lib/service.js and lib/validator.js. -/
section Worker

variable (js : Builtins)

/-- What a loaded module has for the action: the pointer of its output, and the schema document. -/
structure Module where
  output : Option String
  resolveSchemaFromPath : String → Option Json

/-- The schema that the action's output is checked against. -/
def Module.schema (module : Module) : Option Json := module.output.bind module.resolveSchemaFromPath

/-- `typeof(value) === 'object'`, for what is not null. -/
def isObject : Json → Bool
  | .object _ | .array _ => true
  | _ => false

/-- `validate` of a value: the schema is one, it compiles, and the value passes. -/
def validates (schema value : Json) : Bool :=
  isObject value && isObject schema && (js.compile schema).any fun check => check value

/-- What a handler comes to: an error, or an object with or without an output. -/
inductive Handled where
  | failed
  | returned (output : Option Json)

/-- A success of the action, with the schema that its output has passed. -/
structure Ran where
  output : Option Json
  against : Option Json

/-- `invokeAction` of a service. -/
def invokeAction (module : Module) : Handled → Option Ran
  | .failed => none
  | .returned output =>
      match module.output with
      | none => some ⟨output, none⟩
      | some path =>
          match output, module.resolveSchemaFromPath path with
          | some value, some schema => if validates js schema value then some ⟨some value, some schema⟩ else none
          | _, _ => none

end Worker

/-! The main thread. -/
section Main

variable (js : Builtins)

/-- The module that the device's worker has loaded, and the pointer in the spec that the main thread has of the action. -/
structure World where
  worker : Option Module
  listed : Option (Option String)

def isObjectSchema (data : Json) : Bool :=
  match member data "type" with
  | some (.string "object") => true
  | _ => false

/-- `resolveOutputSchema`, of a target that was looked up before. -/
def resolveOutputSchema (world : World) (path : Option String) (refused : Bool) : Option Json :=
  match path with
  | none => none
  | some path =>
      if refused then none
      else (world.worker.bind fun module => module.resolveSchemaFromPath path).filter isObjectSchema

/-- An answer with structuredContent: the output, the schema taken for it, and the one that the worker checked it against. -/
structure Structured where
  output : Json
  outputSchema : Json
  against : Option Json

/-- `moduleToolResult`: without a schema, or without an output, there is no structuredContent. -/
def moduleToolResult (ran : Ran) (outputSchema : Option Json) : Option Structured :=
  match outputSchema, ran.output with
  | some schema, some output => some ⟨output, schema, ran.against⟩
  | _, _ => none

/-- A tools/call before its schema is fetched, and before its action is run. -/
inductive Call where
  | started (path : Option String)
  | fetched (callSchema : Option Json)

inductive Task where
  | waiting
  | ran (ran : Ran)
  | stamping (ran : Ran) (path : Option String)
  | completed (ran : Ran) (outputSchemaHash : Option String)

/-- A tasks/result that has the job, before the schema is fetched. -/
structure Reading where
  ran : Ran
  outputSchemaHash : Option String
  path : Option String

structure State where
  world : World
  calls : Nat → Option Call
  tasks : Nat → Option Task
  reads : Nat → Option Reading
  answers : List Structured

inductive Event where
  /-- The worker has loaded a module: in place, or as a new worker. -/
  | load (module : Module)
  | gone
  /-- The main thread hears of the devices that are online. -/
  | online
  | unlisted
  | call (id : Nat)
  | callSchema (id : Nat) (refused : Bool)
  | callAction (id : Nat) (handled : Handled)
  | addJob (id : Nat)
  | runJob (id : Nat) (handled : Handled)
  | stamp (id : Nat)
  | stampSchema (id : Nat) (refused : Bool)
  | result (read id : Nat)
  | resultSchema (read : Nat) (refused : Bool)

def start (world : World) : State := ⟨world, fun _ => none, fun _ => none, fun _ => none, []⟩

def State.call (s : State) (id : Nat) (call : Option Call) : State := { s with calls := Function.update s.calls id call }
def State.task (s : State) (id : Nat) (task : Option Task) : State := { s with tasks := Function.update s.tasks id task }
def State.read (s : State) (id : Nat) (read : Option Reading) : State := { s with reads := Function.update s.reads id read }
def State.answer (s : State) (answer : Option Structured) : State := { s with answers := answer.toList ++ s.answers }

def run (world : World) (handled : Handled) : Option Ran :=
  world.worker.bind fun module => invokeAction js module handled

/-- `doHandleTasksResult`, once the advertised schema is there. -/
def advertised (reading : Reading) (schema : Option Json) : Option Json :=
  schema.filter fun schema => reading.outputSchemaHash = some (outputSchemaHash js schema)

/-- An event that does not fit where its call, task or read is has no effect. -/
def step (s : State) : Event → State
  | .load module => { s with world := { s.world with worker := some module } }
  | .gone => { s with world := { s.world with worker := none } }
  | .online => { s with world := { s.world with listed := s.world.worker.map Module.output } }
  | .unlisted => { s with world := { s.world with listed := none } }
  | .call id =>
      match s.calls id, s.world.listed with
      | none, some path => s.call id (some (.started path))
      | _, _ => s
  | .callSchema id refused =>
      match s.calls id with
      | some (.started path) => s.call id (some (.fetched (resolveOutputSchema s.world path refused)))
      | _ => s
  | .callAction id handled =>
      match s.calls id with
      | some (.fetched callSchema) =>
          (s.call id none).answer ((run js s.world handled).bind fun ran => moduleToolResult ran callSchema)
      | _ => s
  | .addJob id =>
      match s.tasks id with
      | none => s.task id (some .waiting)
      | _ => s
  | .runJob id handled =>
      match s.tasks id with
      | some .waiting => s.task id ((run js s.world handled).map .ran)
      | _ => s
  | .stamp id =>
      match s.tasks id with
      | some (.ran ran) =>
          match s.world.listed with
          | some path => s.task id (some (.stamping ran path))
          | none => s.task id (some (.completed ran none))
      | _ => s
  | .stampSchema id refused =>
      match s.tasks id with
      | some (.stamping ran path) =>
          s.task id (some (.completed ran ((resolveOutputSchema s.world path refused).map (outputSchemaHash js))))
      | _ => s
  | .result read id =>
      match s.tasks id, s.world.listed with
      | some (.completed ran hash), some path => s.read read (some ⟨ran, hash, path⟩)
      | _, _ => s
  | .resultSchema read refused =>
      match s.reads read with
      | some reading =>
          (s.read read none).answer
            (moduleToolResult reading.ran (advertised js reading (resolveOutputSchema s.world reading.path refused)))
      | none => s

def runEvents : State → List Event → State
  | s, [] => s
  | s, event :: events => runEvents (step js s event) events

end Main

/-! Runs in which no reload comes between. -/
section Undisturbed

variable (js : Builtins)

/-- The output was checked by the worker that made it, against the schema that the answer was given, up to the order of
keys. -/
def Structured.Carried (answer : Structured) : Prop :=
  ∃ schema, answer.against = some schema ∧ validates js schema answer.output = true ∧
    canonicalJSON js schema = canonicalJSON js answer.outputSchema

/-- A call between the look-up of its target and its action, or a job between its run and the schema of its stamp. -/
def Busy (s : State) : Prop :=
  (∃ id call, s.calls id = some call) ∨ (∃ id ran, s.tasks id = some (.ran ran)) ∨
    ∃ id ran path, s.tasks id = some (.stamping ran path)

/-- Two modules with one declaration and one schema of the action's output. -/
def SameOutput (before after : Module) : Prop :=
  after.output = before.output ∧ after.schema.map (canonicalJSON js) = before.schema.map (canonicalJSON js)

/-- The spec that the main thread has of the action, if any, is that of the worker, if there is one. -/
def World.Current (world : World) : Prop :=
  ∀ module path, world.worker = some module → world.listed = some path → path = module.output

/-- While there is a call or a job in between, the module is loaded again with what it had; and a target is looked up when
the main thread knows of the module that is loaded. -/
def Undisturbed (s : State) : Event → Prop
  | .load module => Busy s → ∃ before, s.world.worker = some before ∧ SameOutput js before module
  | .call _ | .stamp _ => s.world.Current
  | _ => True

def Calm : State → List Event → Prop
  | _, [] => True
  | s, event :: events => Undisturbed js s event ∧ Calm (step js s event) events

/-- The output of a run has passed the schema that it is said to have passed. -/
def Ran.Valid (ran : Ran) : Prop :=
  ∀ schema, ran.against = some schema → ∃ output, ran.output = some output ∧ validates js schema output = true

/-- The worker, if there is one, has the schema that the run was checked against. -/
def Ran.Fresh (ran : Ran) (world : World) : Prop :=
  ∀ module, world.worker = some module → module.schema.map (canonicalJSON js) = ran.against.map (canonicalJSON js)

def Call.Sound (world : World) : Call → Prop
  | .started path => ∀ module, world.worker = some module → path = module.output
  | .fetched callSchema => ∀ schema, callSchema = some schema → ∀ module, world.worker = some module →
      module.schema.map (canonicalJSON js) = some (canonicalJSON js schema)

/-- The stamp is the hash of the schema that the run was checked against. -/
def Stamped (ran : Ran) (hash : Option String) : Prop :=
  ∀ text, hash = some text → ran.against.map (outputSchemaHash js) = some text

def Task.Sound (world : World) : Task → Prop
  | .waiting => True
  | .ran done => done.Valid js ∧ done.Fresh js world
  | .stamping done path => done.Valid js ∧ done.Fresh js world ∧ ∀ module, world.worker = some module → path = module.output
  | .completed done hash => done.Valid js ∧ Stamped js done hash

structure Sound (s : State) : Prop where
  calls : ∀ id call, s.calls id = some call → call.Sound js s.world
  tasks : ∀ id task, s.tasks id = some task → task.Sound js s.world
  reads : ∀ id reading, s.reads id = some reading → reading.ran.Valid js ∧ Stamped js reading.ran reading.outputSchemaHash
  answers : ∀ answer ∈ s.answers, answer.Carried js

variable {js}

theorem invoke_action_some {module : Module} {handled : Handled} {ran : Ran}
    (success : invokeAction js module handled = some ran) : ran.Valid js ∧ ran.against = module.schema := by
  cases handled with
  | failed => cases success
  | returned output =>
      unfold invokeAction at success
      unfold Module.schema
      cases declared : module.output with
      | none =>
          simp only [declared, Option.some.injEq] at success
          subst success
          exact ⟨fun schema none => (by cases none), rfl⟩
      | some path =>
          simp only [declared] at success
          split at success
          · rename_i value schema resolved
            split at success
            · rename_i passes
              cases success
              constructor
              · intro other same
                cases same
                exact ⟨value, rfl, passes⟩
              · exact resolved.symm
            · cases success
          · cases success

theorem run_some {world : World} {handled : Handled} {ran : Ran} (success : run js world handled = some ran) :
    ran.Valid js ∧ ran.Fresh js world := by
  obtain ⟨module, loaded, invoked⟩ := Option.bind_eq_some_iff.mp success
  obtain ⟨valid, against⟩ := invoke_action_some invoked
  refine ⟨valid, ?_⟩
  intro other isLoaded
  cases loaded.symm.trans isLoaded
  rw [against]

/-- With the pointer that the worker's module has, the schema is the one the worker checks against. -/
theorem resolved_schema {world : World} {path : Option String} {refused : Bool} {schema : Json}
    (resolved : resolveOutputSchema world path refused = some schema)
    (current : ∀ module, world.worker = some module → path = module.output) :
    ∃ module, world.worker = some module ∧ module.schema = some schema := by
  unfold resolveOutputSchema at resolved
  split at resolved
  · cases resolved
  · split at resolved
    · cases resolved
    · obtain ⟨fetched, _⟩ := Option.filter_eq_some_iff.mp resolved
      obtain ⟨module, loaded, found⟩ := Option.bind_eq_some_iff.mp fetched
      refine ⟨module, loaded, ?_⟩
      rw [Module.schema, ← current module loaded]
      exact found

theorem tool_result_some {ran : Ran} {outputSchema : Option Json} {answer : Structured}
    (given : moduleToolResult ran outputSchema = some answer) :
    outputSchema = some answer.outputSchema ∧ ran.output = some answer.output ∧ answer.against = ran.against := by
  unfold moduleToolResult at given
  split at given
  · cases given
    exact ⟨rfl, ‹_›, rfl⟩
  · cases given

/-- An answer is carried when its schema has the text of the one the run was checked against. -/
theorem carried_of_text {ran : Ran} {outputSchema : Option Json} {answer : Structured} (valid : ran.Valid js)
    (given : moduleToolResult ran outputSchema = some answer)
    (same : ran.against.map (canonicalJSON js) = some (canonicalJSON js answer.outputSchema)) : answer.Carried js := by
  obtain ⟨_, isOutput, against⟩ := tool_result_some given
  obtain ⟨schema, isSchema, text⟩ := Option.map_eq_some_iff.mp same
  obtain ⟨output, hasOutput, passes⟩ := valid schema isSchema
  cases isOutput.symm.trans hasOutput
  exact ⟨schema, against.trans isSchema, passes, text⟩

variable {s : State}

/-- What holds of each entry of a table, and of the one that is put in. -/
theorem update_entry {Item : Type} {table : Nat → Option Item} {holds : Item → Prop} {id : Nat} {item : Option Item}
    (old : ∀ other next, table other = some next → holds next) (new : ∀ next, item = some next → holds next) :
    ∀ other next, Function.update table id item other = some next → holds next := by
  intro other next is
  by_cases same : other = id
  · subst same
    rw [Function.update_self] at is
    exact new next is
  · rw [Function.update_of_ne same] at is
    exact old other next is

theorem Sound.call (sound : Sound js s) (id : Nat) {call : Option Call} (ok : ∀ next, call = some next → next.Sound js s.world) :
    Sound js (s.call id call) := by
  constructor
  · exact update_entry sound.calls ok
  · exact sound.tasks
  · exact sound.reads
  · exact sound.answers

theorem Sound.task (sound : Sound js s) (id : Nat) {task : Option Task} (ok : ∀ next, task = some next → next.Sound js s.world) :
    Sound js (s.task id task) := by
  constructor
  · exact sound.calls
  · exact update_entry sound.tasks ok
  · exact sound.reads
  · exact sound.answers

theorem Sound.read (sound : Sound js s) (id : Nat) {read : Option Reading}
    (ok : ∀ next, read = some next → next.ran.Valid js ∧ Stamped js next.ran next.outputSchemaHash) :
    Sound js (s.read id read) := by
  constructor
  · exact sound.calls
  · exact sound.tasks
  · exact update_entry sound.reads ok
  · exact sound.answers

theorem Sound.answer (sound : Sound js s) {answer : Option Structured} (ok : ∀ next, answer = some next → next.Carried js) :
    Sound js (s.answer answer) := by
  constructor
  · exact sound.calls
  · exact sound.tasks
  · exact sound.reads
  · intro next member
    rcases List.mem_append.mp member with new | old
    · exact ok next (Option.mem_toList.mp new)
    · exact sound.answers next old

/-- Only the worker of the world counts for what is in between. -/
theorem Sound.world (sound : Sound js s) (world : World)
    (calls : ∀ id call, s.calls id = some call → call.Sound js world)
    (tasks : ∀ id task, s.tasks id = some task → task.Sound js world) : Sound js { s with world := world } := by
  constructor
  · exact calls
  · exact tasks
  · exact sound.reads
  · exact sound.answers

theorem Sound.listed (sound : Sound js s) (listed : Option (Option String)) :
    Sound js { s with world := { s.world with listed := listed } } := by
  apply sound.world
  · intro id call is
    have before := sound.calls id call is
    cases call <;> exact before
  · intro id task is
    have before := sound.tasks id task is
    cases task <;> exact before

theorem Sound.gone (sound : Sound js s) : Sound js { s with world := { s.world with worker := none } } := by
  apply sound.world
  · intro id call _
    cases call with
    | started path => intro module none; cases none
    | fetched callSchema => intro schema _ module none; cases none
  · intro id task is
    have before := sound.tasks id task is
    cases task with
    | waiting => trivial
    | ran ran => exact ⟨before.1, by intro module none; cases none⟩
    | stamping ran path =>
        obtain ⟨valid, _, _⟩ := before
        refine ⟨valid, ?_, ?_⟩ <;>
          intro module none <;>
          cases none
    | completed ran hash => exact before

/-- A reload changes nothing for what is in between, or there is nothing. -/
theorem Sound.load (sound : Sound js s) (module : Module) (undisturbed : Undisturbed js s (.load module)) :
    Sound js { s with world := { s.world with worker := some module } } := by
  apply sound.world
  · intro id call is
    obtain ⟨before, loaded, sameOutput, sameSchema⟩ := undisturbed (Or.inl ⟨id, call, is⟩)
    have held := sound.calls id call is
    cases call with
    | started path =>
        intro other isModule
        cases isModule
        rw [sameOutput]
        exact held before loaded
    | fetched callSchema =>
        intro schema isSchema other isModule
        cases isModule
        rw [sameSchema]
        exact held schema isSchema before loaded
  · intro id task is
    have held := sound.tasks id task is
    cases task with
    | waiting => trivial
    | completed ran hash => exact held
    | ran ran =>
        obtain ⟨before, loaded, _, sameSchema⟩ := undisturbed (Or.inr (Or.inl ⟨id, ran, is⟩))
        refine ⟨held.1, ?_⟩
        intro other isModule
        cases isModule
        rw [sameSchema]
        exact held.2 before loaded
    | stamping ran path =>
        obtain ⟨before, loaded, sameOutput, sameSchema⟩ := undisturbed (Or.inr (Or.inr ⟨id, ran, path, is⟩))
        obtain ⟨valid, fresh, declared⟩ := held
        refine ⟨valid, ?_, ?_⟩
        · intro other isModule
          cases isModule
          rw [sameSchema]
          exact fresh before loaded
        · intro other isModule
          cases isModule
          rw [sameOutput]
          exact declared before loaded

/-- What a call's action gives, checked by the worker that has it now. -/
theorem Sound.called (sound : Sound js s) {id : Nat} {callSchema : Option Json} (waits : s.calls id = some (.fetched callSchema))
    {handled : Handled} {answer : Structured}
    (given : (run js s.world handled).bind (fun ran => moduleToolResult ran callSchema) = some answer) :
    answer.Carried js := by
  obtain ⟨ran, success, result⟩ := Option.bind_eq_some_iff.mp given
  obtain ⟨valid, fresh⟩ := run_some success
  obtain ⟨module, loaded, _⟩ := Option.bind_eq_some_iff.mp success
  obtain ⟨isSchema, _, _⟩ := tool_result_some result
  apply carried_of_text valid result
  rw [← fresh module loaded]
  exact sound.calls id _ waits answer.outputSchema isSchema module loaded

theorem Sound.stamped (sound : Sound js s) {id : Nat} {ran : Ran} {path : Option String}
    (stamping : s.tasks id = some (.stamping ran path)) (refused : Bool) :
    Stamped js ran ((resolveOutputSchema s.world path refused).map (outputSchemaHash js)) := by
  obtain ⟨_, fresh, declared⟩ := sound.tasks id _ stamping
  intro text isText
  obtain ⟨schema, resolved, rfl⟩ := Option.map_eq_some_iff.mp isText
  obtain ⟨module, loaded, isSchema⟩ := resolved_schema resolved declared
  have texts := fresh module loaded
  rw [isSchema, Option.map_some] at texts
  obtain ⟨against, isAgainst, same⟩ := Option.map_eq_some_iff.mp texts.symm
  rw [isAgainst, Option.map_some, outputSchemaHash, outputSchemaHash, same]

/-- The hash of the schema that is advertised now is the stamp, so the texts are the same. -/
theorem Sound.result (sound : Sound js s) (distinct : ∀ a b, js.sha256 a = js.sha256 b → a = b) {read : Nat} {reading : Reading}
    (waits : s.reads read = some reading) {schema : Option Json} {answer : Structured}
    (given : moduleToolResult reading.ran (advertised js reading schema) = some answer) : answer.Carried js := by
  obtain ⟨valid, stamped⟩ := sound.reads read reading waits
  obtain ⟨isSchema, _, _⟩ := tool_result_some given
  obtain ⟨_, isHash⟩ := Option.filter_eq_some_iff.mp isSchema
  have hashes := stamped _ (of_decide_eq_true isHash)
  obtain ⟨against, isAgainst, same⟩ := Option.map_eq_some_iff.mp hashes
  apply carried_of_text valid given
  rw [isAgainst, Option.map_some, distinct _ _ same]

theorem Sound.step (sound : Sound js s) (distinct : ∀ a b, js.sha256 a = js.sha256 b → a = b) (event : Event)
    (undisturbed : Undisturbed js s event) : Sound js (step js s event) := by
  cases event with
  | load module => exact sound.load module undisturbed
  | gone => exact sound.gone
  | online => exact sound.listed _
  | unlisted => exact sound.listed _
  | call id =>
      simp only [OutputSchemas.step]
      split
      · rename_i path _ listed
        apply sound.call
        rintro _ ⟨⟩
        intro module loaded
        exact undisturbed module path loaded listed
      · exact sound
  | callSchema id refused =>
      simp only [OutputSchemas.step]
      split
      · rename_i path started
        apply sound.call
        rintro _ ⟨⟩
        intro schema resolved module loaded
        obtain ⟨other, isLoaded, isSchema⟩ := resolved_schema resolved (sound.calls id _ started)
        cases loaded.symm.trans isLoaded
        rw [isSchema, Option.map_some]
      · exact sound
  | callAction id handled =>
      simp only [OutputSchemas.step]
      split
      · rename_i callSchema waits
        apply Sound.answer
        · exact sound.call id fun next none => by cases none
        · exact fun answer given => sound.called waits given
      · exact sound
  | addJob id =>
      simp only [OutputSchemas.step]
      split
      · apply sound.task
        rintro _ ⟨⟩
        trivial
      · exact sound
  | runJob id handled =>
      simp only [OutputSchemas.step]
      split
      · apply sound.task
        intro next is
        obtain ⟨ran, success, rfl⟩ := Option.map_eq_some_iff.mp is
        exact run_some success
      · exact sound
  | stamp id =>
      simp only [OutputSchemas.step]
      split
      · rename_i ran is
        obtain ⟨valid, fresh⟩ := sound.tasks id _ is
        split
        · rename_i path listed
          apply sound.task
          rintro _ ⟨⟩
          exact ⟨valid, fresh, fun module loaded => undisturbed module path loaded listed⟩
        · apply sound.task
          rintro _ ⟨⟩
          exact ⟨valid, by intro text none; cases none⟩
      · exact sound
  | stampSchema id refused =>
      simp only [OutputSchemas.step]
      split
      · rename_i ran path stamping
        apply sound.task
        rintro _ ⟨⟩
        exact ⟨(sound.tasks id _ stamping).1, sound.stamped stamping refused⟩
      · exact sound
  | result read id =>
      simp only [OutputSchemas.step]
      split
      · rename_i ran hash path completed _
        apply sound.read
        rintro _ ⟨⟩
        exact sound.tasks id _ completed
      · exact sound
  | resultSchema read refused =>
      simp only [OutputSchemas.step]
      split
      · rename_i reading waits
        apply Sound.answer
        · exact sound.read read fun next none => by cases none
        · exact fun answer given => sound.result distinct waits given
      · exact sound

theorem start_sound (world : World) : Sound js (start world) := by
  constructor
  · intro id call is
    cases is
  · intro id task is
    cases is
  · intro id reading is
    cases is
  · intro answer member
    cases member

theorem Sound.run (distinct : ∀ a b, js.sha256 a = js.sha256 b → a = b) (events : List Event) (sound : Sound js s)
    (calm : Calm js s events) : Sound js (runEvents js s events) := by
  induction events generalizing s with
  | nil => exact sound
  | cons event events ih => exact ih (sound.step distinct event calm.1) calm.2

/-- In a run whose reloads stay out of the way, every answer with structuredContent was checked against the schema that it
was given. -/
theorem answers_carried (js : Builtins) (distinct : ∀ a b, js.sha256 a = js.sha256 b → a = b) (world : World)
    (events : List Event) (calm : Calm js (start world) events) :
    ∀ answer ∈ (runEvents js (start world) events).answers, answer.Carried js :=
  ((start_sound world).run distinct events calm).answers

end Undisturbed

/-! A module whose action asks for one name in its output, and then for another. -/
section Reload

/-- The names in `required`. -/
def required (schema : Json) : List String :=
  match member schema "required" with
  | some (.array names) => names.filterMap fun name =>
      match name with
      | .string text => some text
      | _ => none
  | _ => none.toList

/-- A validator that knows of `required`, and a digest that is the text itself. -/
def plainBuiltins : Builtins where
  quote := fun text => "\"" ++ text ++ "\""
  number := fun value => toString value.num
  sha256 := id
  compile := fun schema => some fun value => (required schema).all fun name => (member value name).isSome

def asksFor (name : String) : Json :=
  .object [("type", .string "object"), ("required", .array [.string name])]

def moduleOf (name : String) : Module := ⟨some "/report/output", fun _ => some (asksFor name)⟩

def world : World := ⟨some (moduleOf "total"), some (some "/report/output")⟩

def outputOf (name : String) : Json := .object [(name, .number 1)]

/-- A call, and a task with its result; the module is loaded again in between, as it is. -/
def orderly : List Event :=
  [.addJob 0, .runJob 0 (.returned (some (outputOf "total"))), .load (moduleOf "total"), .stamp 0, .stampSchema 0 false,
    .call 0, .load (moduleOf "total"), .callSchema 0 false, .callAction 0 (.returned (some (outputOf "total"))),
    .result 0 0, .resultSchema 0 false]

theorem orderly_answers_carried :
    (runEvents plainBuiltins (start world) orderly).answers.length = 2 ∧
      ∀ answer ∈ (runEvents plainBuiltins (start world) orderly).answers, answer.Carried plainBuiltins := by
  have again : ∃ before, some (moduleOf "total") = some before ∧ SameOutput plainBuiltins before (moduleOf "total") :=
    ⟨moduleOf "total", rfl, rfl, rfl⟩
  have current : world.Current := by
    intro module path loaded listed
    cases loaded
    cases listed
    rfl
  refine ⟨by decide +kernel, answers_carried plainBuiltins (fun _ _ same => same) world orderly ?_⟩
  exact ⟨trivial, trivial, fun _ => again, current, trivial, current, fun _ => again, trivial, trivial, trivial, trivial,
    trivial⟩

/-- The module comes to ask for another name between the schema of a call and its action. -/
def callOvertaken : List Event :=
  [.call 0, .callSchema 0 false, .load (moduleOf "sum"), .online, .callAction 0 (.returned (some (outputOf "sum")))]

/-- And between the run of a job and its stamp. -/
def stampOvertaken : List Event :=
  [.addJob 0, .runJob 0 (.returned (some (outputOf "total"))), .load (moduleOf "sum"), .online, .stamp 0,
    .stampSchema 0 false, .result 0 0, .resultSchema 0 false]

/-- The client is then given an output with a schema that it does not pass. -/
theorem overtaken_answers :
    (runEvents plainBuiltins (start world) callOvertaken).answers =
        [⟨outputOf "sum", asksFor "total", some (asksFor "sum")⟩] ∧
      (runEvents plainBuiltins (start world) stampOvertaken).answers =
        [⟨outputOf "total", asksFor "sum", some (asksFor "total")⟩] ∧
      validates plainBuiltins (asksFor "total") (outputOf "sum") = false ∧
      ¬ ∀ answer ∈ (runEvents plainBuiltins (start world) callOvertaken).answers, answer.Carried plainBuiltins := by
  have called : (runEvents plainBuiltins (start world) callOvertaken).answers =
      [⟨outputOf "sum", asksFor "total", some (asksFor "sum")⟩] := rfl
  refine ⟨called, rfl, by decide +kernel, ?_⟩
  intro carried
  rw [called] at carried
  obtain ⟨schema, is, _, same⟩ := carried _ (List.mem_singleton_self _)
  cases is
  exact absurd same (by decide +kernel)

end Reload

end Countinghouse.OutputSchemas
