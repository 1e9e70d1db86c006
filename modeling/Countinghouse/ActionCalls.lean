import Countinghouse.PlainObject

/-!
What becomes of one call of an action: `validateActionCall` and `doActionCall` of lib/service.js, and
the try block around them in `DeviceManager.invokeAction`. A handler may do what it likes: it is
the list of what it reports, and of how it ends.
-/

namespace Countinghouse.ActionCalls

open PlainObject

/-! Argument objects and their schemas. -/
section Arguments

/-- A property of an argument object; `Doc` are the objects and arrays that a schema can be about. -/
inductive Payload (Doc : Type) where
  | undefined
  | null
  /-- A function or a primitive. -/
  | bare (truthy : Bool)
  | object (doc : Doc)

variable {Doc : Type}

def Payload.truthy : Payload Doc → Bool
  | .undefined | .null => false
  | .bare truthy => truthy
  | .object _ => true

inductive Arguments (Doc : Type) where
  /-- null or undefined -/
  | nullish
  /-- Reading it throws. -/
  | unreadable
  /-- Whether it is an object and no array, what a `for in` goes through, and what else a read finds. -/
  | value (plain : Bool) (fields further : Table (Payload Doc))

/-- `args[key]` -/
def read (fields further : Table (Payload Doc)) (key : String) : Payload Doc :=
  ((fields.lookup key).or (further.lookup key)).getD .undefined

inductive Verdict where
  | accepts
  /-- What `getValidatorErrorInfo` makes of the first error. -/
  | rejects (info : String)
  | throws (message : String)

inductive Schema where
  | missing
  /-- Still the pointer of the spec. -/
  | pointer
  | document
  deriving DecidableEq

structure SchemaObj (Doc : Type) where
  schema : Schema
  validator : Option (Doc → Verdict)

/-- `validate` of lib/validator.js: the error and its info. -/
def validate (name : String) (schemaObj : SchemaObj Doc) : Payload Doc → Option (String × String)
  | .null => some ("empty data", name)
  | .undefined | .bare _ => some ("data is not of type object", name)
  | .object doc =>
      match schemaObj.schema, schemaObj.validator with
      | .missing, _ => some ("data has no schema object", name)
      | .pointer, _ => some ("data schema object is invalid", name)
      | .document, none => some ("schema validator unavailable", name)
      | .document, some validator =>
          match validator doc with
          | .accepts => none
          | .rejects info => some ("data validation failed", info)
          | .throws message => some ("data validation threw", name ++ message)

def ARGUMENT_KEYS : List String := ["input", "output"]

def FRAMEWORK_ARG_KEYS : List String := ["ctx", "httpHeaders", "jobID"]

/-- What the callback of `validateActionCall` is called with. -/
inductive Check where
  | passed
  | failed (code : String) (fault : Option (String × String))
  /-- It is not called. -/
  | threw

def validateActionCall (schemaObj : Option (SchemaObj Doc)) (args : Arguments Doc) (isInput : Bool) : Check :=
  let key := if isInput then "input" else "output"
  let errorCode := if isInput then "INPUT_DATA_VALIDATION_FAIL" else "OUTPUT_DATA_VALIDATION_FAIL"
  match args with
  | .nullish => .failed (if isInput then "ARGUMENTS_INVALID" else "MISSING_OUTPUT_ARGUMENT") none
  | .unreadable => .threw
  | .value plain fields further =>
      match (if plain then fields else []).find? fun field => field.1 ∉ ARGUMENT_KEYS ∧ field.1 ∉ FRAMEWORK_ARG_KEYS with
      | some field => .failed errorCode (some ("unexpected " ++ key ++ " argument: " ++ field.1, ""))
      | none =>
          match schemaObj with
          | none => .passed
          | some schemaObj =>
              match read fields further key with
              | .undefined => .failed errorCode (some (key ++ " argument not found", ""))
              | data =>
                  match validate key schemaObj data with
                  | none => .passed
                  | some fault => .failed errorCode (some fault)

end Arguments

/-! What a handler does. -/
section Handlers

/-- A value that is reported as an error. -/
inductive Reported where
  | nullish
  | falsy
  /-- A DeviceError or CHError. -/
  | typed (code : String)
  | other
  /-- Reading it throws. -/
  | unreadable
  deriving DecidableEq

def Reported.truthy : Reported → Bool
  | .nullish | .falsy => false
  | _ => true

/-- `toJSONSafeFault` does not throw on it. -/
def Reported.legible : Reported → Bool
  | .nullish | .unreadable => false
  | _ => true

variable (Doc : Type)

/-- A call of the callback, or of one of the two functions that `then` is given. -/
inductive Signal where
  | callback (err : Reported) (output : Arguments Doc)
  | resolve (output : Arguments Doc)
  | reject (err : Reported)

inductive Ended where
  | threw (err : Reported)
  /-- With no thenable. -/
  | returned
  /-- With a thenable, which signals before its `then` returns. -/
  | awaited (signals : List (Signal Doc))
  /-- With an object from which an exception leaves, when `then` is read or called. -/
  | failed (signals : List (Signal Doc)) (err : Reported)

/-- The calls of the callback before the handler ends, how it ends, and what it signals later. -/
structure Behaviour where
  during : List (Reported × Arguments Doc)
  ended : Ended Doc
  later : List (Signal Doc)

end Handlers

/-! `doActionCall` -/
section Calls

variable {Doc : Type}

/-- The second argument of an answer that is an error. -/
inductive Data (Doc : Type) where
  | null
  | reason (text info : String)
  | safe (err : Reported)
  | thrown (err : Reported)
  | fault (payload : Payload Doc)
  | output (output : Arguments Doc)

inductive Answer (Doc : Type) where
  | success (output : Arguments Doc)
  | error (code : String) (data : Data Doc)

/-- What an answer is for: a signal, what the handler threw, or what left `doActionCall`. -/
inductive Cause (Doc : Type) where
  | signalled (signal : Signal Doc)
  | crashed (err : Reported)
  | escaped (err : Reported)

variable (output : Option (SchemaObj Doc))

/-- `finish` -/
def finish (result : Arguments Doc) : Option (Answer Doc) :=
  match validateActionCall output result false with
  | .passed => some (.success result)
  | .failed code none => some (.error code .null)
  | .failed code (some fault) => some (.error code (.reason fault.1 fault.2))
  | .threw => none

/-- `if (output && output.fault) return cb(error, output.fault); return cb(error, output);` -/
def withFault (code : String) (result : Arguments Doc) : Option (Answer Doc) :=
  match result with
  | .nullish => some (.error code (.output .nullish))
  | .unreadable => none
  | .value plain fields further =>
      let fault := read fields further "fault"
      some (.error code (if fault.truthy then .fault fault else .output (.value plain fields further)))

def fail (err : Reported) (result : Arguments Doc) (untypedCode : String) : Option (Answer Doc) :=
  match err with
  | .unreadable => none
  | .typed code => withFault code result
  | _ =>
      if untypedCode = "DEVICE_INVOKE_EXCEPTION" then
        if err.legible then some (.error untypedCode (.safe err)) else none
      else withFault untypedCode result

/-- What a signal is answered with, when it is the first. -/
def deliver : Signal Doc → Option (Answer Doc)
  | .callback err result => if err.truthy then fail err result "DEVICE_INVOKE_FAIL" else finish output result
  | .resolve result => finish output result
  | .reject err => fail err .nullish "DEVICE_INVOKE_EXCEPTION"

/-- A call under way, with the calls of the answer callback so far. -/
structure Call (Doc : Type) where
  settled : Bool
  answers : List (Cause Doc × Answer Doc)

def delivered (signal : Signal Doc) : List (Cause Doc × Answer Doc) :=
  ((deliver output signal).map fun answer => (.signalled signal, answer)).toList

def take (call : Call Doc) (signal : Signal Doc) : Call Doc :=
  if call.settled then call else ⟨true, call.answers ++ delivered output signal⟩

/-- The call when `doActionCall` has ended, and what it threw. -/
def doActionCall (handler : Behaviour Doc) : Call Doc × Option Reported :=
  let call := (handler.during.map fun report => Signal.callback report.1 report.2).foldl (take output) ⟨false, []⟩
  match handler.ended with
  | .threw err =>
      if call.settled then (call, none)
      else if err.legible then
        (⟨true, call.answers ++ [(.crashed err, .error "DEVICE_INVOKE_EXCEPTION" (.safe err))]⟩, none)
      else (⟨true, call.answers⟩, some .other)
  | .returned => (call, none)
  | .awaited signals => (signals.foldl (take output) call, none)
  | .failed signals err => (signals.foldl (take output) call, some err)

/-- The try block of `DeviceManager.invokeAction`. -/
def invokeAction (handler : Behaviour Doc) : Call Doc :=
  match doActionCall output handler with
  | (call, none) => call
  | (call, some err) =>
      { call with answers := call.answers ++ [(.escaped err, .error "DEVICE_INVOKE_EXCEPTION" (.thrown err))] }

/-- All calls of the answer callback, with those for what is signalled after `invokeAction` has returned. -/
def answers (handler : Behaviour Doc) : List (Cause Doc × Answer Doc) :=
  (handler.later.foldl (take output) (invokeAction output handler)).answers

end Calls

/-! The property. -/
section Delivery

variable {Doc : Type}

/-- The error that was reported. -/
def Cause.error : Cause Doc → Option Reported
  | .signalled (.callback err _) => some err
  | .signalled (.resolve _) => none
  | .signalled (.reject err) => some err
  | .crashed err => some err
  | .escaped err => some err

/-- A typed error whose code is not that of an exception. -/
def Reported.hasOwnCode : Reported → Bool
  | .typed code => code ≠ "DEVICE_INVOKE_EXCEPTION"
  | _ => false

def Arguments.isReadable : Arguments Doc → Bool
  | .unreadable => false
  | _ => true

/-- A signal that cannot be answered, because reading what it reports throws. -/
def Signal.mute : Signal Doc → Bool
  | .callback err result => err = .unreadable || !result.isReadable
  | .resolve result => !result.isReadable
  | .reject err => !err.legible

/-- All that is signalled, in order. -/
def Behaviour.signals (handler : Behaviour Doc) : List (Signal Doc) :=
  (handler.during.map fun report => Signal.callback report.1 report.2) ++
    (match handler.ended with
      | .threw _ | .returned => []
      | .awaited signals | .failed signals _ => signals) ++ handler.later

/--
A handler that throws a typed error has called back before; and an exception that leaves a thenable
is no typed error, and the only thing that is reported.
-/
def Orderly (handler : Behaviour Doc) : Prop :=
  match handler.ended with
  | .threw err => handler.during = [] → err.hasOwnCode = false
  | .returned | .awaited _ => True
  | .failed _ err => err.hasOwnCode = false ∧ ∀ first, handler.signals.head? = some first → first.mute = true

end Delivery

/-! One signal. -/
section Signals

variable {Doc : Type} {output : Option (SchemaObj Doc)}

end Signals

/-! All signals of a call. -/
section Runs

variable {Doc : Type} (output : Option (SchemaObj Doc))

/-- What is answered when nothing else is: the first signal. -/
def firstAnswer : List (Signal Doc) → List (Cause Doc × Answer Doc)
  | [] => []
  | signal :: _ => delivered output signal

variable {output}

variable (output) in
/-- The call when nothing but these signals was taken. -/
def signalled (signals : List (Signal Doc)) : Call Doc := ⟨!signals.isEmpty, firstAnswer output signals⟩

end Runs

/-! Which handlers are answered properly. -/
section Verdicts

variable {Doc : Type} {output : Option (SchemaObj Doc)}

end Verdicts

end Countinghouse.ActionCalls
