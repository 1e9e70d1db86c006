import Countinghouse.JsonValues
import Countinghouse.SplitText
import Countinghouse.ToolRegistry

/-!
Who may call which device. lib/auth/sqlite-provider.js answers from two tables, which
bin/countinghouse-auth-sqlite.js edits, and lib/auth/file-provider.js from auth.json.
`filterTargetsByAuth` of lib/mcp/tool-registry.js asks either for the devices of a key.
-/

namespace Countinghouse.AuthProviders

open FreshNames JsonValues PlainObject ToolRegistry
open RedisMetering (Json)
open SplitText (codeUnits)

inductive CHError where
  | SYSTEM_ERROR_UNKNOWN_USER (apiKey : Option String)
  | USER_HAS_NO_DEVICE

structure Verdict where
  ok : Bool
  userName : Json
  isAdmin : Bool
  err : Option CHError

/-- The calls of an AuthProvider that ask about devices. An error has been thrown. -/
structure Provider where
  authenticate : Option String → Option String → Except String Verdict
  listDevices : Option String → Except String (List Json)

/-! The tables, and the commands that edit them. -/
section Tables

structure User where
  apiKey : String
  userName : String
  admin : Nat
  deriving DecidableEq

/-- Rows with the primary keys that the tables are created with. -/
structure Tables where
  users : List User
  user_devices : List (String × String)
  users_keyed : (users.map User.apiKey).Nodup
  devices_keyed : user_devices.Nodup

def Tables.empty : Tables := ⟨[], [], List.nodup_nil, List.nodup_nil⟩

def HasUser (t : Tables) (apiKey : String) : Prop := ∃ user ∈ t.users, user.apiKey = apiKey

/-- `ON CONFLICT(apiKey) DO UPDATE SET userName = excluded.userName` -/
def renamed (apiKey userName : String) (user : User) : User :=
  if user.apiKey = apiKey then { user with userName } else user

def insertUser (users : List User) (apiKey userName : String) : List User :=
  if apiKey ∈ users.map User.apiKey then users.map (renamed apiKey userName) else users ++ [⟨apiKey, userName, 0⟩]

def withAdmin (apiKey : String) (admin : Nat) (user : User) : User :=
  if user.apiKey = apiKey then { user with admin } else user

theorem renamed_keys (users : List User) (apiKey userName : String) :
    (users.map (renamed apiKey userName)).map User.apiKey = users.map User.apiKey := by
  simp only [List.map_map, List.map_inj_left, Function.comp_apply, renamed]
  intro user _
  split <;> rfl

theorem with_admin_keys (users : List User) (apiKey : String) (admin : Nat) :
    (users.map (withAdmin apiKey admin)).map User.apiKey = users.map User.apiKey := by
  simp only [List.map_map, List.map_inj_left, Function.comp_apply, withAdmin]
  intro user _
  split <;> rfl

theorem insert_user_keys (users : List User) (apiKey userName : String) :
    (insertUser users apiKey userName).map User.apiKey =
      if apiKey ∈ users.map User.apiKey then users.map User.apiKey else users.map User.apiKey ++ [apiKey] := by
  unfold insertUser
  split
  · exact renamed_keys users apiKey userName
  · simp

def addUser (t : Tables) (apiKey userName : String) : Tables :=
  { t with
    users := insertUser t.users apiKey userName
    users_keyed := by
      rw [insert_user_keys]
      split
      · exact t.users_keyed
      · rename_i absent
        simpa [List.nodup_append, t.users_keyed] using absent }

def removeUser (t : Tables) (apiKey : String) : Tables where
  users := t.users.filter fun user => user.apiKey ≠ apiKey
  user_devices := t.user_devices.filter fun row => row.1 ≠ apiKey
  users_keyed := t.users_keyed.sublist (List.filter_sublist.map _)
  devices_keyed := t.devices_keyed.filter _

/-- `INSERT OR IGNORE`; the users are not looked at. -/
def grant (t : Tables) (apiKey deviceID : String) : Tables :=
  { t with
    user_devices := if (apiKey, deviceID) ∈ t.user_devices then t.user_devices else t.user_devices ++ [(apiKey, deviceID)]
    devices_keyed := by
      split
      · exact t.devices_keyed
      · rename_i absent
        simp only [List.nodup_append, t.devices_keyed, List.nodup_singleton, true_and, List.mem_singleton]
        rintro row member _ rfl rfl
        exact absent member }

def revoke (t : Tables) (apiKey deviceID : String) : Tables :=
  { t with
    user_devices := t.user_devices.filter fun row => row ≠ (apiKey, deviceID)
    devices_keyed := t.devices_keyed.filter _ }

/-- `UPDATE`, which changes no row when there is no such user. -/
def setAdmin (t : Tables) (apiKey : String) (admin : Nat) : Tables :=
  { t with
    users := t.users.map (withAdmin apiKey admin)
    users_keyed := by rw [with_admin_keys]; exact t.users_keyed }

/-- What `main` does with the arguments that `parseArgs` has left. Without the arguments that a command needs it prints
its usage; `list` and unknown commands change nothing either. -/
def main (t : Tables) : List String → Tables
  | "add-user" :: apiKey :: userName :: _ => addUser t apiKey userName
  | "remove-user" :: apiKey :: _ => removeUser t apiKey
  | "grant" :: apiKey :: deviceID :: _ => grant t apiKey deviceID
  | "revoke" :: apiKey :: deviceID :: _ => revoke t apiKey deviceID
  | "set-admin" :: apiKey :: "true" :: _ => setAdmin t apiKey 1
  | "set-admin" :: apiKey :: "false" :: _ => setAdmin t apiKey 0
  | _ => t

def run : List (List String) → Tables → Tables
  | [], t => t
  | args :: rest, t => run rest (main t args)

end Tables

/-! The providers. -/
section Providers

def sqliteAuthenticate (t : Tables) (apiKey deviceID : Option String) : Verdict :=
  match apiKey with
  | none => ⟨false, .null, false, some (.SYSTEM_ERROR_UNKNOWN_USER none)⟩
  | some key =>
      match t.users.find? fun user => user.apiKey = key with
      | none => ⟨false, .null, false, some (.SYSTEM_ERROR_UNKNOWN_USER (some key))⟩
      | some userRow =>
          match deviceID with
          | none => ⟨true, .string userRow.userName, userRow.admin = 1, none⟩
          | some id =>
              if t.user_devices.any fun row => row.1 = key ∧ (row.2 = id ∨ row.2 = "*") then
                ⟨true, .string userRow.userName, userRow.admin = 1, none⟩
              else ⟨false, .string userRow.userName, userRow.admin = 1, some .USER_HAS_NO_DEVICE⟩

def sqliteListDevices (t : Tables) (apiKey : Option String) : List Json :=
  match apiKey with
  | none => []
  | some key => (t.user_devices.filter fun row => row.1 = key).map fun row => .string row.2

def sqliteProvider (t : Tables) : Provider where
  authenticate apiKey deviceID := .ok (sqliteAuthenticate t apiKey deviceID)
  listDevices apiKey := .ok (sqliteListDevices t apiKey)

def element (items : List Json) (key : String) : Option Json :=
  if key = "length" then some (.number items.length)
  else ((items.zipIdx).find? fun item => toString item.2 = key).map Prod.fst

/-- `hasOwnProperty.call(config, key)`, and `config[key]` when it has. -/
def ownProperty (config : Json) (key : String) : Except String (Option Json) :=
  match config with
  | .null => .error "Cannot convert undefined or null to object"
  | .bool _ | .number _ => .ok none
  | .string text => .ok (element ((codeUnits text).map Json.string) key)
  | .array items => .ok (element items key)
  | .object fields => .ok (fields.lookup key)

structure Entry where
  userName : Json
  devices : List Json
  admin : Bool

/-- What is at `configPath`: a text that is no JSON parses to nothing. -/
inductive AuthFile where
  | missing
  | unreadable
  | text (parsed : Option Json)

/-- `COUNTINGHOUSE_API_KEY`, when it is set. -/
def envKeyOf (setting : Option String) : Option String := setting.filter fun key => key ≠ ""

/-- `_load`; a demo key is made up when there is neither a file nor a key in the environment. -/
def load (envKey : Option String) (demoKey : String) : AuthFile → Json
  | .missing =>
      if envKey.isSome then .object []
      else .object [(demoKey, .object [("userName", .string "demo"), ("devices", .array [.string "*"])])]
  | .unreadable | .text none => .object []
  | .text (some parsed) => parsed

def lookupEntry (config : Json) (envKey apiKey : Option String) : Except String (Option Entry) :=
  match apiKey with
  | none => .ok none
  | some key =>
      if envKey = some key then .ok (some ⟨.string "env-key-user", [.string "*"], true⟩)
      else
        match ownProperty config key with
        | .error message => .error message
        | .ok none | .ok (some .null) => .ok none
        | .ok (some entry) =>
            .ok (some
              { userName :=
                  match member entry "userName" with
                  | none | some .null => .string key
                  | some name => name
                devices :=
                  match member entry "devices" with
                  | some (.array devices) => devices
                  | _ => []
                admin :=
                  match member entry "admin" with
                  | some (.bool admin) => admin
                  | _ => false })

def fileAuthenticate (config : Json) (envKey apiKey deviceID : Option String) : Except String Verdict :=
  match lookupEntry config envKey apiKey with
  | .error message => .error message
  | .ok none => .ok ⟨false, .null, false, some (.SYSTEM_ERROR_UNKNOWN_USER apiKey)⟩
  | .ok (some entry) =>
      match deviceID with
      | none => .ok ⟨true, entry.userName, entry.admin, none⟩
      | some id =>
          if includes entry.devices (.string "*") || includes entry.devices (.string id) then .ok ⟨true, entry.userName, entry.admin, none⟩
          else .ok ⟨false, entry.userName, entry.admin, some .USER_HAS_NO_DEVICE⟩

def fileListDevices (config : Json) (envKey apiKey : Option String) : Except String (List Json) :=
  match lookupEntry config envKey apiKey with
  | .error message => .error message
  | .ok none => .ok []
  | .ok (some entry) => .ok entry.devices

/-- `FileAuthProvider` -/
def fileProvider (file : AuthFile) (setting : Option String) (demoKey : String) : Provider :=
  let envKey := envKeyOf setting
  let config := load envKey demoKey file
  { authenticate := fileAuthenticate config envKey
    listDevices := fileListDevices config envKey }

def filterTargetsByAuth (provider : Provider) (debug : Bool) (appKey : Option String) (targets : Table Target) :
    Except String (Table Target) :=
  if debug then .ok targets
  else if appKey = none then .ok []
  else
    match provider.listDevices appKey with
    | .error message => .error message
    | .ok devices =>
        if includes devices (.string "*") then .ok targets
        else .ok (targets.filter fun entry => includes devices (.string entry.2.deviceID))

end Providers

/-! A provider on which the list of tools and the calls agree. -/
section Listed

def Described (specs : Table DeviceSpec) (deviceID : String) : Prop :=
  ∃ spec, (deviceID, spec) ∈ specs ∧ deviceTools deviceID spec ≠ []

def toolsOf (targets : Table Target) (deviceID : String) : Table Target :=
  targets.filter fun entry => entry.2.deviceID = deviceID

def Shown (provider : Provider) (apiKey : Option String) (targets : Table Target) (entry : String × Target) : Prop :=
  ∃ tools, filterTargetsByAuth provider false apiKey targets = .ok tools ∧ entry ∈ tools

def Callable (provider : Provider) (apiKey : Option String) (deviceID : String) : Prop :=
  ∃ verdict, provider.authenticate apiKey (some deviceID) = .ok verdict ∧ verdict.ok = true

/-- A device with a described action has tools, and a key is shown all of them when it may call the device and none when
it may not. -/
def Coincide (provider : Provider) : Prop :=
  ∀ (apiKey : Option String) (specs : Table DeviceSpec) (deviceID : String), Described specs deviceID →
    ((∃ entry ∈ toolsOf (buildToolTargets specs) deviceID, Shown provider apiKey (buildToolTargets specs) entry) ↔
        Callable provider apiKey deviceID) ∧
      ((∀ entry ∈ toolsOf (buildToolTargets specs) deviceID, Shown provider apiKey (buildToolTargets specs) entry) ↔
        Callable provider apiKey deviceID)

/-- `listDevices` names the device, or every device. -/
def Lists (provider : Provider) (apiKey deviceID : String) : Prop :=
  ∃ devices, provider.listDevices (some apiKey) = .ok devices ∧
    (includes devices (.string "*") = true ∨ includes devices (.string deviceID) = true)

theorem assigned (used : List String) (items : List (Target × String)) {tool : Target × String} (listed : tool ∈ items) :
    ∃ name, (name, tool.1) ∈ FreshNames.assign suffixed used items := by
  induction items generalizing used with
  | nil => cases listed
  | cons item rest ih =>
      simp only [FreshNames.assign]
      rcases List.mem_cons.mp listed with rfl | later
      · exact ⟨_, List.mem_cons_self⟩
      · obtain ⟨name, there⟩ := ih (firstFree suffixed used item.2 :: used) later
        exact ⟨name, List.mem_cons_of_mem _ there⟩

theorem tool_of_device {deviceID : String} {spec : DeviceSpec} {tool : Target × String}
    (listed : tool ∈ deviceTools deviceID spec) : tool.1.deviceID = deviceID := by
  obtain ⟨service, _, ofService⟩ := List.mem_flatMap.mp listed
  obtain ⟨action, _, isTool⟩ := List.mem_filterMap.mp ofService
  unfold actionTool at isTool
  split at isTool
  · cases isTool
  · split at isTool
    · cases isTool
    · simp only [Option.some.injEq] at isTool
      rw [← isTool]

theorem described_has_tool {specs : Table DeviceSpec} {deviceID : String} (described : Described specs deviceID) :
    ∃ entry, entry ∈ toolsOf (buildToolTargets specs) deviceID := by
  obtain ⟨spec, there, some⟩ := described
  obtain ⟨tool, listed⟩ := List.exists_mem_of_ne_nil _ some
  obtain ⟨name, target⟩ := assigned reservedNames (listedTools specs) (List.mem_flatMap.mpr ⟨_, there, listed⟩)
  have ofDevice := tool_of_device listed
  exact ⟨(name, tool.1), List.mem_filter.mpr ⟨target, by simpa using ofDevice⟩⟩

theorem shown_iff (provider : Provider) (apiKey : String) {targets : Table Target} {entry : String × Target}
    (isTarget : entry ∈ targets) :
    Shown provider (some apiKey) targets entry ↔ Lists provider apiKey entry.2.deviceID := by
  unfold Shown Lists filterTargetsByAuth
  simp only [Bool.false_eq_true, ↓reduceIte, reduceCtorEq]
  cases provider.listDevices (some apiKey) with
  | error message => simp
  | ok devices =>
      by_cases every : includes devices (.string "*") = true
      · simp [every, isTarget]
      · simp [every, isTarget]

theorem shown_without_key (provider : Provider) (targets : Table Target) (entry : String × Target) :
    ¬ Shown provider none targets entry := by
  rintro ⟨tools, answered, member⟩
  simp only [filterTargetsByAuth, Bool.false_eq_true, ↓reduceIte, Except.ok.injEq] at answered
  rw [← answered] at member
  cases member

/-- It is enough that the two calls of a provider agree on every key and device. -/
theorem coincide_of_agreement {provider : Provider} (closed : ∀ deviceID, ¬ Callable provider none deviceID)
    (agree : ∀ apiKey deviceID, Lists provider apiKey deviceID ↔ Callable provider (some apiKey) deviceID) :
    Coincide provider := by
  intro apiKey specs deviceID described
  obtain ⟨tool, isTool⟩ := described_has_tool described
  have each : ∀ entry ∈ toolsOf (buildToolTargets specs) deviceID,
      (Shown provider apiKey (buildToolTargets specs) entry ↔ Callable provider apiKey deviceID) := by
    intro entry ofDevice
    obtain ⟨isTarget, same⟩ := List.mem_filter.mp ofDevice
    have same : entry.2.deviceID = deviceID := by simpa using same
    cases apiKey with
    | none =>
        have hidden := shown_without_key provider (buildToolTargets specs) entry
        simp [hidden, closed deviceID]
    | some key =>
        rw [shown_iff provider key isTarget, same]
        exact agree key deviceID
  constructor
  · constructor
    · rintro ⟨entry, ofDevice, shown⟩
      exact (each entry ofDevice).mp shown
    · intro callable
      exact ⟨tool, isTool, (each tool isTool).mpr callable⟩
  · constructor
    · intro all
      exact (each tool isTool).mp (all tool isTool)
    · intro callable entry ofDevice
      exact (each entry ofDevice).mpr callable

theorem described_scan (deviceID : String) : Described [(deviceID, scanSpec "device")] deviceID := by
  have worded : "Scans a repository.".toList.all isSpace = false := by decide +kernel
  refine ⟨scanSpec "device", List.mem_singleton.mpr rfl, ?_⟩
  simp only [deviceTools, scanSpec, Option.getD_some, List.flatMap_cons, List.flatMap_nil, List.append_nil, serviceTools,
    List.filterMap_cons, actionTool, worded, Bool.false_eq_true, ↓reduceIte]
  exact List.cons_ne_nil _ _

/-- And necessary: any device may have a described action. -/
theorem agreement_of_coincide {provider : Provider} (coincide : Coincide provider) (apiKey deviceID : String) :
    Lists provider apiKey deviceID ↔ Callable provider (some apiKey) deviceID := by
  have described := described_scan deviceID
  rw [← (coincide (some apiKey) _ deviceID described).1]
  constructor
  · intro lists
    obtain ⟨tool, isTool⟩ := described_has_tool described
    obtain ⟨isTarget, same⟩ := List.mem_filter.mp isTool
    have same : tool.2.deviceID = deviceID := by simpa using same
    exact ⟨tool, isTool, (shown_iff provider apiKey isTarget).mpr (same ▸ lists)⟩
  · rintro ⟨tool, isTool, shown⟩
    obtain ⟨isTarget, same⟩ := List.mem_filter.mp isTool
    have same : tool.2.deviceID = deviceID := by simpa using same
    exact same ▸ (shown_iff provider apiKey isTarget).mp shown

end Listed

/-! auth.json: both calls read the entry that `_lookup` finds. -/
section File

variable (file : AuthFile) (setting : Option String) (demoKey : String)

theorem file_agreement (apiKey deviceID : String) :
    Lists (fileProvider file setting demoKey) apiKey deviceID ↔
      Callable (fileProvider file setting demoKey) (some apiKey) deviceID := by
  unfold Lists Callable fileProvider fileListDevices fileAuthenticate
  simp only
  cases lookupEntry (load (envKeyOf setting) demoKey file) (envKeyOf setting) (some apiKey) with
  | error message => simp
  | ok found =>
      cases found with
      | none => simp [includes]
      | some entry =>
          by_cases has : includes entry.devices (.string "*") = true ∨ includes entry.devices (.string deviceID) = true
          · simp [has]
          · simp [has]

theorem file_coincide : Coincide (fileProvider file setting demoKey) := by
  apply coincide_of_agreement
  · rintro deviceID ⟨verdict, answered, isOk⟩
    simp only [fileProvider, fileAuthenticate, lookupEntry, Except.ok.injEq] at answered
    rw [← answered] at isOk
    cases isOk
  · exact file_agreement file setting demoKey

end File

/-! The tables: the two calls agree as long as every row of `user_devices` has its user. -/
section Rows

/-- The row that a `SELECT` for the device finds. -/
def Granted (t : Tables) (apiKey deviceID : String) : Prop :=
  ∃ row ∈ t.user_devices, row.1 = apiKey ∧ (row.2 = deviceID ∨ row.2 = "*")

def Owned (t : Tables) : Prop := ∀ row ∈ t.user_devices, HasUser t row.1

theorem sqlite_lists_iff (t : Tables) (apiKey deviceID : String) :
    Lists (sqliteProvider t) apiKey deviceID ↔ Granted t apiKey deviceID := by
  have asTexts : sqliteListDevices t (some apiKey) =
      ((t.user_devices.filter fun row => row.1 = apiKey).map Prod.snd).map Json.string := by
    simp [sqliteListDevices]
  have names : ∀ text, includes (sqliteListDevices t (some apiKey)) (.string text) = true ↔ (apiKey, text) ∈ t.user_devices := by
    intro text
    rw [asTexts, includes_text]
    simp
  constructor
  · rintro ⟨devices, answered, every | named⟩
    · simp only [sqliteProvider, Except.ok.injEq] at answered
      exact ⟨_, (names "*").mp (answered ▸ every), rfl, Or.inr rfl⟩
    · simp only [sqliteProvider, Except.ok.injEq] at answered
      exact ⟨_, (names deviceID).mp (answered ▸ named), rfl, Or.inl rfl⟩
  · rintro ⟨⟨key, device⟩, there, rfl, rfl | rfl⟩
    · exact ⟨_, rfl, Or.inr ((names device).mpr there)⟩
    · exact ⟨_, rfl, Or.inl ((names "*").mpr there)⟩

theorem sqlite_callable_iff (t : Tables) (apiKey deviceID : String) :
    Callable (sqliteProvider t) (some apiKey) deviceID ↔ HasUser t apiKey ∧ Granted t apiKey deviceID := by
  have selected : (t.user_devices.any fun row => row.1 = apiKey ∧ (row.2 = deviceID ∨ row.2 = "*")) = true ↔
      Granted t apiKey deviceID := by
    simp only [List.any_eq_true, decide_eq_true_eq, Granted]
  have known : (∃ user ∈ t.users, (decide (user.apiKey = apiKey)) = true) ↔ HasUser t apiKey := by
    simp [HasUser]
  unfold Callable sqliteProvider sqliteAuthenticate
  simp only [Except.ok.injEq, exists_eq_left']
  cases isUser : t.users.find? fun user => user.apiKey = apiKey with
  | none =>
      have missing : ¬ HasUser t apiKey := by
        rw [← known, ← List.find?_isSome, isUser]
        simp
      simp [missing]
  | some user =>
      have has : HasUser t apiKey := by
        rw [← known, ← List.find?_isSome, isUser]
        rfl
      dsimp only
      rw [← selected]
      split
      · rename_i row
        exact iff_of_true rfl ⟨has, row⟩
      · rename_i row
        exact iff_of_false Bool.false_ne_true fun both => row both.2

theorem sqlite_coincide_iff (t : Tables) : Coincide (sqliteProvider t) ↔ Owned t := by
  constructor
  · intro coincide row there
    have agree := agreement_of_coincide coincide row.1 row.2
    rw [sqlite_lists_iff, sqlite_callable_iff] at agree
    exact (agree.mp ⟨row, there, rfl, Or.inl rfl⟩).1
  · intro owned
    apply coincide_of_agreement
    · rintro deviceID ⟨verdict, answered, isOk⟩
      simp only [sqliteProvider, sqliteAuthenticate, Except.ok.injEq] at answered
      rw [← answered] at isOk
      cases isOk
    · intro apiKey deviceID
      rw [sqlite_lists_iff, sqlite_callable_iff]
      constructor
      · rintro ⟨row, there, rfl, device⟩
        exact ⟨owned row there, row, there, rfl, device⟩
      · exact And.right

end Rows

/-! What each command does to the rows. -/
section Commands

theorem has_user_keys {t other : Tables} (same : t.users.map User.apiKey ⊆ other.users.map User.apiKey) {apiKey : String}
    (has : HasUser t apiKey) : HasUser other apiKey := by
  obtain ⟨user, there, rfl⟩ := has
  obtain ⟨kept, there, same⟩ := List.mem_map.mp (same (List.mem_map.mpr ⟨user, there, rfl⟩))
  exact ⟨kept, there, same⟩

theorem add_user_owned {t : Tables} (owned : Owned t) (apiKey userName : String) : Owned (addUser t apiKey userName) := by
  intro row there
  apply has_user_keys _ (owned row there)
  simp only [addUser, insert_user_keys]
  split
  · exact List.Subset.refl _
  · exact List.subset_append_left _ _

theorem set_admin_owned {t : Tables} (owned : Owned t) (apiKey : String) (admin : Nat) :
    Owned (setAdmin t apiKey admin) := by
  intro row there
  apply has_user_keys _ (owned row there)
  simp only [setAdmin, with_admin_keys]
  exact List.Subset.refl _

/-- A user leaves together with its rows. -/
theorem remove_user_owned {t : Tables} (owned : Owned t) (apiKey : String) : Owned (removeUser t apiKey) := by
  intro row there
  obtain ⟨there, other⟩ := List.mem_filter.mp there
  have other : row.1 ≠ apiKey := by simpa using other
  obtain ⟨user, isUser, same⟩ := owned row there
  exact ⟨user, List.mem_filter.mpr ⟨isUser, by simpa [same] using other⟩, same⟩

theorem revoke_owned {t : Tables} (owned : Owned t) (apiKey deviceID : String) : Owned (revoke t apiKey deviceID) :=
  fun row there => owned row (List.mem_filter.mp there).1

theorem mem_grant (t : Tables) (apiKey deviceID : String) (row : String × String) :
    row ∈ (grant t apiKey deviceID).user_devices ↔ row ∈ t.user_devices ∨ row = (apiKey, deviceID) := by
  by_cases known : (apiKey, deviceID) ∈ t.user_devices
  · simp only [grant, known, ↓reduceIte]
    constructor
    · exact Or.inl
    · rintro (old | rfl)
      · exact old
      · exact known
  · simp [grant, known]

theorem grant_owned_iff {t : Tables} (owned : Owned t) (apiKey deviceID : String) :
    Owned (grant t apiKey deviceID) ↔ HasUser t apiKey := by
  constructor
  · intro after
    exact after (apiKey, deviceID) ((mem_grant t apiKey deviceID _).mpr (Or.inr rfl))
  · intro has row there
    rcases (mem_grant t apiKey deviceID row).mp there with old | rfl
    · exact owned row old
    · exact has

/-- A device is granted to a key that is in `users`. -/
def GrantsUser (t : Tables) (args : List String) : Prop :=
  ∀ apiKey deviceID rest, args = "grant" :: apiKey :: deviceID :: rest → HasUser t apiKey

theorem main_owned_iff {t : Tables} (owned : Owned t) (args : List String) : Owned (main t args) ↔ GrantsUser t args := by
  have other (isOther : ∀ apiKey deviceID rest, args ≠ "grant" :: apiKey :: deviceID :: rest) : GrantsUser t args :=
    fun apiKey deviceID rest same => absurd same (isOther apiKey deviceID rest)
  unfold main
  split
  · exact iff_of_true (add_user_owned owned _ _) (other (by simp))
  · exact iff_of_true (remove_user_owned owned _) (other (by simp))
  · rename_i apiKey deviceID rest
    rw [grant_owned_iff owned]
    constructor
    · intro has key device more same
      simp only [List.cons.injEq, true_and] at same
      exact same.1 ▸ has
    · exact fun grants => grants apiKey deviceID rest rfl
  · exact iff_of_true (revoke_owned owned _ _) (other (by simp))
  · exact iff_of_true (set_admin_owned owned _ _) (other (by simp))
  · exact iff_of_true (set_admin_owned owned _ _) (other (by simp))
  · rename_i notGrant _ _ _
    exact iff_of_true owned (other (by simpa using notGrant))

theorem owned_iff_grants (commands : List (List String)) {t : Tables} (owned : Owned t) :
    (∀ before after, commands = before ++ after → Owned (run before t)) ↔
      ∀ before args after, commands = before ++ args :: after → GrantsUser (run before t) args := by
  induction commands generalizing t with
  | nil =>
      constructor
      · intro _ before args after split
        simp at split
      · intro _ before after split
        have isFirst : before = [] := by simp_all
        rw [isFirst]
        exact owned
  | cons first rest ih =>
      constructor
      · intro all before args after split
        have next : Owned (main t first) := all [first] rest rfl
        cases before with
        | nil =>
            simp only [List.nil_append, List.cons.injEq] at split
            exact split.1 ▸ (main_owned_iff owned first).mp next
        | cons head before =>
            simp only [List.cons_append, List.cons.injEq] at split
            obtain ⟨rfl, split⟩ := split
            exact (ih next).mp (fun before after split => all (first :: before) after (by simp [split])) before args after split
      · intro grants before after split
        have next : Owned (main t first) := (main_owned_iff owned first).mpr (grants [] first rest rfl)
        cases before with
        | nil => exact owned
        | cons head before =>
            simp only [List.cons_append, List.cons.injEq] at split
            obtain ⟨rfl, split⟩ := split
            exact (ih next).mpr (fun before args after split => grants (first :: before) args after (by simp [split]))
              before after split

end Commands

/-! The tools that are listed are those that can be called. -/
section Agreement

/-- For auth.json always; for the tables as long as devices are granted to users that are there. -/
theorem listed_iff_callable (commands : List (List String)) (file : AuthFile) (setting : Option String)
    (demoKey : String) :
    ((∀ before after, commands = before ++ after → Coincide (sqliteProvider (run before .empty))) ↔
        ∀ before args after, commands = before ++ args :: after → GrantsUser (run before .empty) args) ∧
      Coincide (fileProvider file setting demoKey) := by
  constructor
  · have nothing : Owned .empty := fun row there => nomatch there
    rw [← owned_iff_grants commands nothing]
    simp only [sqlite_coincide_iff]
  · exact file_coincide _ _ _

/-- The key of a user that was never added, or was misspelt. -/
theorem granted_without_user : ¬ Coincide (sqliteProvider (run [["grant", "key", "device"]] .empty)) := by
  rw [sqlite_coincide_iff]
  intro owned
  obtain ⟨user, there, -⟩ := owned ("key", "device") (by decide)
  cases there

end Agreement

end Countinghouse.AuthProviders
