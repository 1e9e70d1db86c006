import Countinghouse.DeviceSpecs
import Countinghouse.RedisMetering
import Countinghouse.SplitText
import Countinghouse.ToolsCall

/-!
The metering keys of lib/metering/redis-provider.js: `encodeLegacyTool` joins a device id, a
service id and an action name with `:::`, and `decodeLegacyTool` splits the key there.
-/

namespace Countinghouse.MeteringKeys

open DeviceSpecs SplitText
open RedisMetering (decodeLegacyTool)
open ToolRegistry (Triple)
open ToolsCall (encodeLegacyTool)

/-- `^[a-fA-F0-9]{8}-[a-fA-F0-9]{4}-[a-fA-F0-9]{4}-[a-fA-F0-9]{4}-[a-fA-F0-9]{12}$` -/
def isUUID (text : String) : Bool :=
  (text.toList.splitOn '-').map List.length = [8, 4, 4, 4, 12] &&
    text.toList.all fun c => c = '-' || c.isDigit || ('a' ≤ c && c ≤ 'f') || ('A' ≤ c && c ≤ 'F')

/-- An action with a device id, a service id and a name that the schema accepts. -/
structure Admitted (tool : Triple) : Prop where
  deviceID : isUUID tool.deviceID = true
  serviceID : isServiceID tool.serviceID = true
  actionName : isActionName tool.actionName = true

instance (tool : Triple) : Decidable (Admitted tool) :=
  decidable_of_iff (isUUID tool.deviceID = true ∧ isServiceID tool.serviceID = true ∧ isActionName tool.actionName = true)
    ⟨fun admitted => ⟨admitted.1, admitted.2.1, admitted.2.2⟩,
      fun admitted => ⟨admitted.deviceID, admitted.serviceID, admitted.actionName⟩⟩

def RoundTrips (tool : Triple) : Prop :=
  decodeLegacyTool (encodeLegacyTool tool) = some (tool.deviceID, tool.serviceID, tool.actionName)

/-- Both keys give their parts back, and they are one key for one action only. -/
def Identified (tool other : Triple) : Prop :=
  RoundTrips tool ∧ RoundTrips other ∧ (encodeLegacyTool tool = encodeLegacyTool other → tool = other)

def delimiter : List Char := ":::".toList

/-- The delimiter is in neither name, and no colon comes before it. -/
structure Separable (tool : Triple) : Prop where
  serviceID : ¬ delimiter <:+: tool.serviceID.toList
  last : tool.serviceID.toList.getLast? ≠ some ':'
  actionName : ¬ delimiter <:+: tool.actionName.toList

instance (tool : Triple) : Decidable (Separable tool) :=
  decidable_of_iff (¬ delimiter <:+: tool.serviceID.toList ∧ tool.serviceID.toList.getLast? ≠ some ':' ∧
      ¬ delimiter <:+: tool.actionName.toList)
    ⟨fun parts => ⟨parts.1, parts.2.1, parts.2.2⟩, fun separable => ⟨separable.1, separable.2, separable.3⟩⟩

theorem uuid_colon {text : String} (uuid : isUUID text = true) : ':' ∉ text.toList := by
  simp only [isUUID, Bool.and_eq_true, List.all_eq_true] at uuid
  intro colon
  exact absurd (uuid.2 ':' colon) (by decide)

/-- Every part but the last one is found where it ends. -/
theorem ends_iff (part : List Char) : Ends delimiter part ↔ ¬ delimiter <:+: part ∧ part.getLast? ≠ some ':' :=
  ends_replicate_iff ':' 2 part

theorem device_ends {deviceID : String} (uuid : isUUID deviceID = true) : Ends delimiter deviceID.toList := by
  rw [ends_iff]
  have none := uuid_colon uuid
  constructor
  · intro inside
    exact none (inside.subset (by decide))
  · intro last
    exact none (List.mem_of_getLast? last)

/-- What the key of an action is split into. -/
theorem decode_encode {tool : Triple} (uuid : isUUID tool.deviceID = true) :
    decodeLegacyTool (encodeLegacyTool tool) =
      match (pieces delimiter (tool.serviceID.toList ++ delimiter ++ tool.actionName.toList)).map String.ofList with
      | [serviceID, actionName] => some (tool.deviceID, serviceID, actionName)
      | _ => none := by
  have isText : (encodeLegacyTool tool).toList =
      tool.deviceID.toList ++ delimiter ++ (tool.serviceID.toList ++ delimiter ++ tool.actionName.toList) := by
    simp [encodeLegacyTool, delimiter]
  have first := (pieces_cons_iff (by decide) tool.deviceID.toList
    (tool.serviceID.toList ++ delimiter ++ tool.actionName.toList)).mpr (device_ends uuid)
  have isSplit := split_on_pieces (encodeLegacyTool tool) ":::" (by decide)
  rw [isText, show ":::".toList = delimiter from rfl, first, List.map_cons, String.ofList_toList] at isSplit
  unfold decodeLegacyTool
  rw [isSplit]
  generalize (pieces delimiter (tool.serviceID.toList ++ delimiter ++ tool.actionName.toList)).map String.ofList = parts
  match parts with
  | [] | [_] | [_, _] | _ :: _ :: _ :: _ => rfl

theorem round_trips_iff {tool : Triple} (uuid : isUUID tool.deviceID = true) : RoundTrips tool ↔ Separable tool := by
  have isPair : RoundTrips tool ↔
      pieces delimiter (tool.serviceID.toList ++ delimiter ++ tool.actionName.toList) =
        [tool.serviceID.toList, tool.actionName.toList] := by
    unfold RoundTrips
    rw [decode_encode uuid]
    generalize pieces delimiter (tool.serviceID.toList ++ delimiter ++ tool.actionName.toList) = parts
    match parts with
    | [] | [_] | _ :: _ :: _ :: _ => simp
    | [serviceID, actionName] => simp [String.ofList_eq]
  rw [isPair, pieces_pair_iff (by decide), ends_iff]
  constructor
  · rintro ⟨⟨serviceID, last⟩, actionName⟩
    exact ⟨serviceID, last, actionName⟩
  · intro separable
    exact ⟨⟨separable.serviceID, separable.last⟩, separable.actionName⟩

/-- Keys that give their parts back are those of different actions. -/
theorem round_trips_inj {tool other : Triple} (trips : RoundTrips tool) (alsoTrips : RoundTrips other)
    (same : encodeLegacyTool tool = encodeLegacyTool other) : tool = other := by
  unfold RoundTrips at trips alsoTrips
  rw [same, alsoTrips] at trips
  cases tool
  cases other
  simp_all

/-- Two actions are identified by their keys exactly when neither has a delimiter of its own. -/
theorem key_identifies_action (tool other : Triple) (admitted : Admitted tool) (alsoAdmitted : Admitted other) :
    Identified tool other ↔ Separable tool ∧ Separable other := by
  rw [← round_trips_iff admitted.deviceID, ← round_trips_iff alsoAdmitted.deviceID]
  constructor
  · rintro ⟨trips, alsoTrips, _⟩
    exact ⟨trips, alsoTrips⟩
  · rintro ⟨trips, alsoTrips⟩
    exact ⟨trips, alsoTrips, round_trips_inj trips alsoTrips⟩

def scan (serviceID actionName : String) : Triple :=
  ⟨"a1b2c3d4-0000-5000-8000-00000000000f", serviceID, actionName⟩

theorem scan_and_list_identified :
    Identified (scan "urn:example-com:serviceID:scan" "run") (scan "urn:example-com:serviceID:scan" "list") :=
  (key_identifies_action _ _ (by decide +kernel) (by decide +kernel)).mpr ⟨by decide +kernel, by decide +kernel⟩

/-- The last colon of one id is the first of the other action's name. -/
theorem two_actions_one_key :
    Admitted (scan "urn:example-com:serviceID:scan:" "run") ∧ Admitted (scan "urn:example-com:serviceID:scan" ":run") ∧
      ¬ Identified (scan "urn:example-com:serviceID:scan:" "run") (scan "urn:example-com:serviceID:scan" ":run") ∧
      encodeLegacyTool (scan "urn:example-com:serviceID:scan:" "run") =
        encodeLegacyTool (scan "urn:example-com:serviceID:scan" ":run") := by
  refine ⟨by decide +kernel, by decide +kernel, ?_, by decide +kernel⟩
  rintro ⟨_, _, one⟩
  exact absurd (one (by decide +kernel)) (by decide)

end Countinghouse.MeteringKeys
