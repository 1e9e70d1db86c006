import Countinghouse.HopPaths

/-!
Who pays for the hops of a composition: `args.ctx` from the entry points (tools/call, HTTP
invoke-action, queued tasks) to `buildCtx`, the clients that `ctx.serviceClient` caches on a
device, the view of a client that `billingWrapper` gives to one call, and the `billingKey` of
a hop up to recordCall.

Handlers of any number of calls run at once. A handler may use its `ctx`, and the clients it
got from it, for as long as it likes. Calls that are refused or fail leave no trace here.
-/

namespace Countinghouse.HopBilling

open PlainObject HopPaths

/-! The caller's identity. -/
section Identities

structure Session where
  appKey : Key
  username : Option String
  isAdmin : Bool

/-- `args.ctx`, the form of a session that is posted to a worker. -/
structure Identity where
  appKey : Key
  username : Option String
  isAdmin : Bool

/-- `ctx.caller` -/
structure Caller where
  apiKey : Key
  userName : Option String
  isAdmin : Bool

def wireIdentityOf (session : Session) : Identity := ⟨session.appKey, session.username, session.isAdmin⟩

def callerIdentityOf (ctx : Option Identity) : Caller :=
  match ctx with
  | some identity => ⟨identity.appKey, identity.username, identity.isAdmin⟩
  | none => ⟨none, none, false⟩

/-- What a handler's `args` hold besides its input. -/
structure Args where
  ctx : Option Identity
  jobID : Option Nat

/-- Who is answered: a session, or in a worker a bare callback. -/
inductive Answered where
  | session (session : Session)
  | callback

/-- The `args` that `CdifInterface.prototype.invokeDeviceAction` passes on. -/
def invokeDeviceAction (args : Args) (session : Answered) : Args :=
  match session with
  | .session session => { args with ctx := some (wireIdentityOf session) }
  | .callback => args

end Identities

/-! Clients. -/
section Clients

structure ServiceClient where
  appKey : Key
  billingKey : Key
  deviceID : String
  serviceID : String

/-- `CHUtil.createServiceClient` with an `appKey` and no `ctx`. -/
def createServiceClient (deviceID serviceID appKey : String) : ServiceClient :=
  ⟨some appKey, some appKey, deviceID, serviceID⟩

/-- A handler that runs. The outer call it works for, and how many hops lead to it from there, are history. -/
structure Activation where
  device : String
  args : Args
  call : Nat
  depth : Nat

/-- `ctx.caller` of the handler. -/
def Activation.caller (activation : Activation) : Caller := callerIdentityOf activation.args.ctx

/-- What `billingWrapper` returns to a handler. -/
structure View where
  owner : Activation
  client : ServiceClient
  billingKey : Key

def billingWrapper (owner : Activation) (client : ServiceClient) : View := ⟨owner, client, owner.caller.apiKey⟩

/-- The key of a client in `_ctxServiceClients`. -/
def clientKey (deviceID serviceID as' : String) : String := deviceID ++ "|" ++ serviceID ++ "|" ++ as'

/-- A createServiceClient that has not answered. -/
structure Creation where
  owner : Activation
  deviceID : String
  serviceID : String
  as' : String

/-- `client.invoke` of a view. -/
def View.invoke (view : View) (actionName : String) : Invoke where
  appKey := view.client.appKey
  clientBillingKey := view.client.billingKey
  optsBillingKey := view.billingKey
  serviceID := view.client.serviceID
  actionName := actionName

end Clients

/-! Hops. -/
section Hops

inductive Path where
  | mainThread
  /-- Over a channel that was opened under an identity. -/
  | peerChannel (appKey : Key)

structure Hop where
  invoke : Invoke
  path : Path
  deviceID : String
  call : Nat
  depth : Nat

/-- The key that recordCall is called with, if it is called. -/
def Hop.payer (hop : Hop) : Key :=
  match hop.path with
  | .mainThread => hop.invoke.billingKey.or hop.invoke.appKey
  | .peerChannel appKey => hop.invoke.billingKey.or appKey

/-- A recordCall for a hop; the hop is history. -/
structure Record where
  apiKey : String
  hop : Hop

/-- How an outer call comes in. -/
inductive Entry where
  | toolsCall
  | invokeAction
  | task
  deriving DecidableEq

structure OuterCall where
  entry : Entry
  caller : Key

structure Composition where
  identity : Key
  allowed : List String

structure State where
  /-- History: the outer calls so far. -/
  calls : List OuterCall
  /-- Queued jobs: the call each is, and its device. -/
  jobs : List (Nat × String)
  /-- `_composition` of a device, once it is settled. -/
  composition : String → Option Composition
  /-- `_ctxServiceClients` of a device. -/
  clients : String → Table ServiceClient
  activations : List Activation
  creations : List Creation
  views : List View
  /-- Hops on their way, and those whose callee runs. -/
  sent : List Hop
  running : List Hop
  recorded : List Record

def State.fresh : State where
  calls := []
  jobs := []
  composition := fun _ => none
  clients := fun _ => []
  activations := []
  creations := []
  views := []
  sent := []
  running := []
  recorded := []

def State.activate (s : State) (activation : Activation) : State :=
  { s with activations := s.activations ++ [activation] }

/-- A call of a session: `args` are posted to the device's worker, which enters them once more. -/
def State.enter (s : State) (entry : Entry) (device : String) (session : Session) : State :=
  let args := invokeDeviceAction (invokeDeviceAction ⟨none, none⟩ (.session session)) .callback
  let noted : State := { s with calls := s.calls ++ [⟨entry, session.appKey⟩] }
  noted.activate ⟨device, args, s.calls.length, 0⟩

/-- `ctx.serviceClient` -/
def State.serviceClient (s : State) (owner : Activation) (deviceID serviceID : String) (as' : Key) : State :=
  match as' with
  | none => s
  | some as' =>
      match (s.clients owner.device).lookup (clientKey deviceID serviceID as') with
      | some client => { s with views := s.views ++ [billingWrapper owner client] }
      | none => { s with creations := s.creations ++ [⟨owner, deviceID, serviceID, as'⟩] }

/-- The answer of createServiceClient. -/
def State.created (s : State) (creation : Creation) : State :=
  let device := creation.owner.device
  let client := createServiceClient creation.deviceID creation.serviceID creation.as'
  let key := clientKey creation.deviceID creation.serviceID creation.as'
  { s with
    clients := Function.update s.clients device (setKey (s.clients device) key client)
    views := s.views ++ [billingWrapper creation.owner client] }

inductive Step where
  | toolsCall (device : String) (session : Session)
  | invokeAction (device : String) (session : Session)
  | addJob (device : String) (session : Session)
  | runJob (job : Nat)
  | setComposition (device : String) (composition : Composition)
  | serviceClient (activation : Nat) (deviceID serviceID : String) (as' : Key)
  | call (activation : Nat) (address : String)
  | created (creation : Nat)
  | invoke (view : Nat) (actionName : String) (path : Path)
  | dispatched (hop : Nat)
  | answered (hop : Nat) (success : Bool)

/-- `resolve` is parseAddress, deviceIDForName and resolveAddress on the spec of the device. -/
def step (resolve : String → Option (String × String)) (s : State) : Step → Option State
  | .toolsCall device session => some (s.enter .toolsCall device session)
  | .invokeAction device session => some (s.enter .invokeAction device session)
  | .addJob device session =>
      some { s with
        calls := s.calls ++ [⟨.task, session.appKey⟩]
        jobs := s.jobs ++ [(s.calls.length, device)] }
  | .runJob job => do
      let (call, device) ← s.jobs[job]?
      return s.activate ⟨device, invokeDeviceAction ⟨none, some job⟩ .callback, call, 0⟩
  | .setComposition device composition =>
      some { s with composition := Function.update s.composition device (some composition) }
  | .serviceClient activation deviceID serviceID as' => do
      let owner ← s.activations[activation]?
      return s.serviceClient owner deviceID serviceID as'
  | .call activation address => do
      let owner ← s.activations[activation]?
      let composition ← s.composition owner.device
      if address ∈ composition.allowed then
        let (deviceID, serviceID) ← resolve address
        return s.serviceClient owner deviceID serviceID composition.identity
      else none
  | .created index => do
      let creation ← s.creations[index]?
      return { s with creations := s.creations.eraseIdx index }.created creation
  | .invoke view actionName path => do
      let view ← s.views[view]?
      let hop : Hop := ⟨view.invoke actionName, path, view.client.deviceID, view.owner.call, view.owner.depth⟩
      return { s with sent := s.sent ++ [hop] }
  | .dispatched index => do
      let hop ← s.sent[index]?
      let moved : State := { s with sent := s.sent.eraseIdx index, running := s.running ++ [hop] }
      return moved.activate ⟨hop.deviceID, invokeDeviceAction ⟨none, none⟩ .callback, hop.call, hop.depth + 1⟩
  | .answered index success => do
      let hop ← s.running[index]?
      let ended : State := { s with running := s.running.eraseIdx index }
      match success, hop.payer with
      -- Without a payer the hop is refused with HOP_IDENTITY_UNRESOLVED.
      | true, some apiKey => return { ended with recorded := s.recorded ++ [⟨apiKey, hop⟩] }
      | _, _ => return ended

def run (resolve : String → Option (String × String)) (s : State) : List Step → Option State
  | [] => some s
  | next :: rest => do
      let s ← step resolve s next
      run resolve s rest

end Hops

/-! What a hop is charged to. -/
section Charges

/-- The payer of a hop under an identity: the outer caller for a hop of the handler that was called from outside, and not
for a task; else the identity itself. -/
def charge (outer : OuterCall) (depth : Nat) (identity : String) : String :=
  if depth = 0 ∧ outer.entry ≠ .task then outer.caller.getD identity else identity

/-- The caller that a handler sees is the outer one or nobody. -/
def Activation.Traced (calls : List OuterCall) (activation : Activation) : Prop :=
  ∃ outer, calls[activation.call]? = some outer ∧
    activation.caller.apiKey = if activation.depth = 0 ∧ outer.entry ≠ .task then outer.caller else none

/-- A client of `ctx` that is shared bills its own identity. -/
def ServiceClient.Own (client : ServiceClient) : Prop :=
  ∃ identity, client.appKey = some identity ∧ client.billingKey = some identity

def Hop.Traced (calls : List OuterCall) (hop : Hop) : Prop :=
  ∃ outer identity, calls[hop.call]? = some outer ∧ hop.invoke.appKey = some identity ∧
    hop.invoke.billingKey = some (charge outer hop.depth identity)

structure State.Traced (s : State) : Prop where
  jobs : ∀ job ∈ s.jobs, ∃ outer, s.calls[job.1]? = some outer ∧ outer.entry = .task
  clients : ∀ device, ∀ entry ∈ s.clients device, entry.2.Own
  activations : ∀ activation ∈ s.activations, activation.Traced s.calls
  creations : ∀ creation ∈ s.creations, creation.owner.Traced s.calls
  views : ∀ view ∈ s.views, view.owner.Traced s.calls ∧ view.client.Own ∧ view.billingKey = view.owner.caller.apiKey
  sent : ∀ hop ∈ s.sent, hop.Traced s.calls
  running : ∀ hop ∈ s.running, hop.Traced s.calls
  recorded : ∀ record ∈ s.recorded, record.hop.Traced s.calls ∧ record.hop.payer = some record.apiKey

variable {s : State} {calls : List OuterCall}

theorem fresh_traced : State.fresh.Traced := by
  constructor <;> simp [State.fresh]

theorem call_kept {call : Nat} {outer : OuterCall} (later : OuterCall) (found : calls[call]? = some outer) :
    (calls ++ [later])[call]? = some outer := by
  have inside : call < calls.length := (List.getElem?_eq_some_iff.mp found).1
  rw [List.getElem?_append_left inside]
  exact found

theorem Activation.Traced.later {activation : Activation} (traced : activation.Traced calls) (later : OuterCall) :
    activation.Traced (calls ++ [later]) := by
  obtain ⟨outer, found, caller⟩ := traced
  exact ⟨outer, call_kept later found, caller⟩

theorem Hop.Traced.later {hop : Hop} (traced : hop.Traced calls) (later : OuterCall) :
    hop.Traced (calls ++ [later]) := by
  obtain ⟨outer, identity, found, client, payer⟩ := traced
  exact ⟨outer, identity, call_kept later found, client, payer⟩

/-- Another call changes nothing for the ones there are. -/
theorem State.Traced.called (traced : s.Traced) (later : OuterCall) :
    { s with calls := s.calls ++ [later] }.Traced where
  jobs := by
    intro job member
    obtain ⟨outer, found, entry⟩ := traced.jobs job member
    exact ⟨outer, call_kept later found, entry⟩
  clients := traced.clients
  activations := fun activation member => (traced.activations activation member).later later
  creations := fun creation member => (traced.creations creation member).later later
  views := fun view member => ⟨(traced.views view member).1.later later, (traced.views view member).2⟩
  sent := fun hop member => (traced.sent hop member).later later
  running := fun hop member => (traced.running hop member).later later
  recorded := fun record member => ⟨(traced.recorded record member).1.later later, (traced.recorded record member).2⟩

theorem State.Traced.activated (traced : s.Traced) {activation : Activation} (shown : activation.Traced s.calls) :
    (s.activate activation).Traced :=
  { traced with activations := List.forall_mem_append.mpr ⟨traced.activations, List.forall_mem_singleton.mpr shown⟩ }

theorem State.Traced.viewed (traced : s.Traced) {owner : Activation} {client : ServiceClient}
    (shown : owner.Traced s.calls) (own : client.Own) :
    { s with views := s.views ++ [billingWrapper owner client] }.Traced :=
  { traced with views := List.forall_mem_append.mpr ⟨traced.views, List.forall_mem_singleton.mpr ⟨shown, own, rfl⟩⟩ }

/-- A handler that a session has called sees the key of the session. -/
theorem enter_traced (traced : s.Traced) {entry : Entry} (direct : entry ≠ .task) (device : String)
    (session : Session) : (s.enter entry device session).Traced := by
  apply (traced.called ⟨entry, session.appKey⟩).activated
  exact ⟨⟨entry, session.appKey⟩, by simp, by simp [direct, Activation.caller, invokeDeviceAction, wireIdentityOf,
    callerIdentityOf]⟩

theorem service_client_traced (traced : s.Traced) {owner : Activation} (shown : owner.Traced s.calls)
    (deviceID serviceID : String) (as' : Key) : (s.serviceClient owner deviceID serviceID as').Traced := by
  unfold State.serviceClient
  split
  · exact traced
  · split
    case h_1 client found => exact traced.viewed shown (traced.clients owner.device _ (lookup_mem found))
    case h_2 =>
      exact { traced with
        creations := List.forall_mem_append.mpr ⟨traced.creations, List.forall_mem_singleton.mpr shown⟩ }

theorem created_traced (traced : s.Traced) {creation : Creation} (shown : creation.owner.Traced s.calls) :
    (s.created creation).Traced := by
  have own : (createServiceClient creation.deviceID creation.serviceID creation.as').Own := ⟨_, rfl, rfl⟩
  have viewed := traced.viewed shown own
  refine { viewed with clients := ?_ }
  intro device entry member
  by_cases same : device = creation.owner.device
  · subst same
    simp only [State.created, Function.update_self] at member
    rcases setKey_mem member with old | new
    · exact traced.clients _ entry old
    · exact new ▸ own
  · simp only [State.created, Function.update_of_ne same] at member
    exact traced.clients device entry member

/-- A hop is charged to the key in the view, and to the client's identity when the view has none. -/
theorem view_invoke_traced {view : View} (shown : view.owner.Traced calls) (own : view.client.Own)
    (billing : view.billingKey = view.owner.caller.apiKey) (actionName : String) (path : Path) :
    Hop.Traced calls ⟨view.invoke actionName, path, view.client.deviceID, view.owner.call, view.owner.depth⟩ := by
  obtain ⟨outer, found, caller⟩ := shown
  obtain ⟨identity, authorized, billed⟩ := own
  refine ⟨outer, identity, found, authorized, ?_⟩
  have sent : (view.invoke actionName).billingKey = view.owner.caller.apiKey.or (some identity) := by
    simp [View.invoke, Invoke.billingKey, billing, billed]
  rw [sent, caller, charge]
  split
  · cases outer.caller <;> rfl
  · rfl

/-- A hop reaches its callee without a caller. -/
theorem callee_traced {hop : Hop} (shown : hop.Traced calls) :
    Activation.Traced calls
      ⟨hop.deviceID, invokeDeviceAction ⟨none, none⟩ .callback, hop.call, hop.depth + 1⟩ := by
  obtain ⟨outer, identity, found, -⟩ := shown
  exact ⟨outer, found, by simp [Activation.caller, invokeDeviceAction, callerIdentityOf]⟩

theorem payer_traced {hop : Hop} {apiKey : String} (shown : hop.Traced calls) (payer : hop.payer = some apiKey) :
    ∃ outer identity, calls[hop.call]? = some outer ∧ hop.invoke.appKey = some identity ∧
      apiKey = charge outer hop.depth identity := by
  obtain ⟨outer, identity, found, authorized, billed⟩ := shown
  refine ⟨outer, identity, found, authorized, ?_⟩
  cases path : hop.path with
  | mainThread => simpa [Hop.payer, path, billed, eq_comm] using payer
  | peerChannel appKey => simpa [Hop.payer, path, billed, eq_comm] using payer

end Charges

/-! Every run. -/
section Runs

variable {resolve : String → Option (String × String)} {s next : State}

theorem step_traced (traced : s.Traced) (event : Step) (stepped : step resolve s event = some next) :
    next.Traced := by
  cases event with
  | toolsCall device session =>
      obtain rfl := Option.some.inj stepped
      exact enter_traced traced (by decide) device session
  | invokeAction device session =>
      obtain rfl := Option.some.inj stepped
      exact enter_traced traced (by decide) device session
  | addJob device session =>
      obtain rfl := Option.some.inj stepped
      have noted := traced.called ⟨.task, session.appKey⟩
      exact { noted with
        jobs := List.forall_mem_append.mpr
          ⟨noted.jobs, List.forall_mem_singleton.mpr ⟨⟨.task, session.appKey⟩, by simp, rfl⟩⟩ }
  | runJob job =>
      simp only [step, Option.bind_eq_bind, Option.bind_eq_some_iff] at stepped
      obtain ⟨⟨call, device⟩, queued, rest⟩ := stepped
      obtain rfl := Option.some.inj rest
      obtain ⟨outer, found, task⟩ := traced.jobs _ (List.mem_of_getElem? queued)
      apply traced.activated
      exact ⟨outer, found, by simp [task, Activation.caller, invokeDeviceAction, callerIdentityOf]⟩
  | setComposition device composition =>
      obtain rfl := Option.some.inj stepped
      exact { traced with }
  | serviceClient activation deviceID serviceID as' =>
      simp only [step, Option.bind_eq_bind, Option.bind_eq_some_iff] at stepped
      obtain ⟨owner, runs, rest⟩ := stepped
      obtain rfl := Option.some.inj rest
      exact service_client_traced traced (traced.activations owner (List.mem_of_getElem? runs)) _ _ _
  | call activation address =>
      simp only [step, Option.bind_eq_bind, Option.bind_eq_some_iff] at stepped
      obtain ⟨owner, runs, composition, bound, rest⟩ := stepped
      split at rest
      · obtain ⟨⟨deviceID, serviceID⟩, resolved, rest⟩ := Option.bind_eq_some_iff.mp rest
        obtain rfl := Option.some.inj rest
        exact service_client_traced traced (traced.activations owner (List.mem_of_getElem? runs)) _ _ _
      · simp at rest
  | created index =>
      simp only [step, Option.bind_eq_bind, Option.bind_eq_some_iff] at stepped
      obtain ⟨creation, asked, rest⟩ := stepped
      obtain rfl := Option.some.inj rest
      have erased : State.Traced { s with creations := s.creations.eraseIdx index } :=
        { traced with creations := fun other member => traced.creations other (List.mem_of_mem_eraseIdx member) }
      exact created_traced erased (traced.creations creation (List.mem_of_getElem? asked))
  | invoke index actionName path =>
      simp only [step, Option.bind_eq_bind, Option.bind_eq_some_iff] at stepped
      obtain ⟨view, held, rest⟩ := stepped
      obtain rfl := Option.some.inj rest
      obtain ⟨shown, own, billing⟩ := traced.views view (List.mem_of_getElem? held)
      have hop := view_invoke_traced shown own billing actionName path
      exact { traced with sent := List.forall_mem_append.mpr ⟨traced.sent, List.forall_mem_singleton.mpr hop⟩ }
  | dispatched index =>
      simp only [step, Option.bind_eq_bind, Option.bind_eq_some_iff] at stepped
      obtain ⟨hop, posted, rest⟩ := stepped
      obtain rfl := Option.some.inj rest
      have shown := traced.sent hop (List.mem_of_getElem? posted)
      have moved : State.Traced { s with sent := s.sent.eraseIdx index, running := s.running ++ [hop] } :=
        { traced with
          sent := fun other member => traced.sent other (List.mem_of_mem_eraseIdx member)
          running := List.forall_mem_append.mpr ⟨traced.running, List.forall_mem_singleton.mpr shown⟩ }
      exact moved.activated (callee_traced shown)
  | answered index success =>
      simp only [step, Option.bind_eq_bind, Option.bind_eq_some_iff] at stepped
      obtain ⟨hop, runs, rest⟩ := stepped
      have shown := traced.running hop (List.mem_of_getElem? runs)
      have ended : State.Traced { s with running := s.running.eraseIdx index } :=
        { traced with running := fun other member => traced.running other (List.mem_of_mem_eraseIdx member) }
      split at rest
      case h_1 apiKey payer =>
        obtain rfl := Option.some.inj rest
        exact { ended with
          recorded := List.forall_mem_append.mpr ⟨traced.recorded, List.forall_mem_singleton.mpr ⟨shown, payer⟩⟩ }
      case h_2 => exact Option.some.inj rest ▸ ended

theorem run_traced (traced : s.Traced) (events : List Step) (ran : run resolve s events = some next) :
    next.Traced := by
  induction events generalizing s with
  | nil => exact Option.some.inj ran ▸ traced
  | cons event rest ih =>
      obtain ⟨middle, stepped, ran⟩ := Option.bind_eq_some_iff.mp ran
      exact ih (step_traced traced event stepped) ran

/-- The handler that a caller has called from outside, by tools/call or invoke-action, makes the hop itself. -/
def Hop.outermost (calls : List OuterCall) (hop : Hop) : Prop :=
  hop.depth = 0 ∧ ∃ outer, calls[hop.call]? = some outer ∧ outer.entry ≠ .task

/-- In every run the recordCall of a hop carries the key of the outer caller exactly when the handler that was called from
outside makes the hop and the call is not a task, or the hop runs under that very key. -/
theorem hop_billed_to_outer_caller_iff (resolve : String → Option (String × String)) (events : List Step)
    (reached : State) (ran : run resolve State.fresh events = some reached) (record : Record)
    (recorded : record ∈ reached.recorded) (outer : OuterCall) (key : String)
    (called : reached.calls[record.hop.call]? = some outer) (authenticated : outer.caller = some key) :
    record.apiKey = key ↔ record.hop.outermost reached.calls ∨ record.hop.invoke.appKey = some key := by
  obtain ⟨shown, payer⟩ := (run_traced fresh_traced events ran).recorded record recorded
  obtain ⟨found, identity, isFound, authorized, charged⟩ := payer_traced shown payer
  obtain rfl : found = outer := Option.some.inj (isFound.symm.trans called)
  have direct : record.hop.outermost reached.calls ↔ record.hop.depth = 0 ∧ found.entry ≠ .task := by
    simp [Hop.outermost, called]
  rw [direct, authorized, charged, charge, Option.some.injEq]
  by_cases outside : record.hop.depth = 0 ∧ found.entry ≠ .task
  · simp [outside, authenticated]
  · simp [outside]

/-- A hop of the handler with this number, the first with a client for its target: made, sent, dispatched and served. -/
def hopSteps (activation view : Nat) (deviceID as' : String) : List Step :=
  [.serviceClient activation deviceID "store" (some as'), .created 0, .invoke view "add" .mainThread, .dispatched 0]

def alice : Session := ⟨some "alice", some "Alice", false⟩

/-- `front` is called by alice and makes one hop. -/
def directRun : List Step := .toolsCall "front" alice :: hopSteps 0 0 "middle" "front-id" ++ [.answered 0 true]

theorem direct_hop_billed_to_alice :
    ∃ reached record, run (fun _ => none) State.fresh directRun = some reached ∧ record ∈ reached.recorded ∧
      record.hop.outermost reached.calls ∧ record.apiKey = "alice" := by
  refine ⟨_, _, rfl, List.mem_singleton.mpr rfl, ⟨rfl, _, rfl, by decide⟩, ?_⟩
  exact (hop_billed_to_outer_caller_iff (fun _ => none) directRun _ rfl _ (List.mem_singleton.mpr rfl) _ "alice" rfl
    rfl).mpr (Or.inl ⟨rfl, _, rfl, by decide⟩)

/-- The callee of that hop makes a hop of its own, which is served first. -/
def nestedRun : List Step :=
  .toolsCall "front" alice :: hopSteps 0 0 "middle" "front-id" ++ hopSteps 1 1 "back" "middle-id" ++ [.answered 1 true]

/-- alice has `front` run as a task, which makes one hop. -/
def taskRun : List Step :=
  .addJob "front" alice :: .runJob 0 :: hopSteps 0 0 "middle" "front-id" ++ [.answered 0 true]

/-- The hop of a hop and the hop of a task are billed to the module that makes them. -/
theorem hops_billed_to_modules :
    (∃ reached record, run (fun _ => none) State.fresh nestedRun = some reached ∧ record ∈ reached.recorded ∧
        reached.calls[record.hop.call]? = some ⟨.toolsCall, some "alice"⟩ ∧ record.apiKey = "middle-id") ∧
      (∃ reached record, run (fun _ => none) State.fresh taskRun = some reached ∧ record ∈ reached.recorded ∧
        reached.calls[record.hop.call]? = some ⟨.task, some "alice"⟩ ∧ record.apiKey = "front-id") :=
  ⟨⟨_, _, rfl, List.mem_singleton.mpr rfl, rfl, rfl⟩, ⟨_, _, rfl, List.mem_singleton.mpr rfl, rfl, rfl⟩⟩

end Runs

end Countinghouse.HopBilling
