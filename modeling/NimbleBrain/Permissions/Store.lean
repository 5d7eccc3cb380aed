import NimbleBrain.Library.OrderedMap
import NimbleBrain.Library.ReadModifyWrite

/- The policies and grants of one owner stand in one file. A call loads it, edits it and saves it whole. -/

namespace NimbleBrain.Permissions

open Library

inductive ToolPolicy where
  | allow | disallow
  deriving DecidableEq

structure ConnectorPermissions where
  tools : Option (OrderedMap String ToolPolicy) := none
  deriving DecidableEq

/-- The grants of a connector are the workspaces that may use it. -/
abbrev ConnectorGrants := OrderedMap String (List String)

structure PermissionsRecord where
  connectors : OrderedMap String ConnectorPermissions := ∅
  grants : Option ConnectorGrants := none
  deriving DecidableEq

/-- A file that was parsed. Its `connectors` may be missing. -/
structure ParsedRecord where
  connectors : Option (OrderedMap String ConnectorPermissions) := none
  grants : Option ConnectorGrants := none
  deriving DecidableEq

/-- The file of an owner, which may not exist. -/
abbrev PermissionsFile := Option ParsedRecord

/-- A connector is named by letters, digits, underscores and hyphens. -/
def isConnectorName (name : String) : Bool :=
  decide (1 ≤ name.length ∧ name.length ≤ 128) &&
    name.toList.all fun c =>
      ('a' ≤ c && c ≤ 'z') || ('A' ≤ c && c ≤ 'Z') || ('0' ≤ c && c ≤ '9') || c == '_' || c == '-'

/-- A workspace is named by `ws_` and sixteen lowercase hexadecimal digits. -/
def isWorkspaceId (name : String) : Bool :=
  name.toList.take 3 == ['w', 's', '_'] && (name.toList.drop 3).length == 16 &&
    (name.toList.drop 3).all fun c => ('a' ≤ c && c ≤ 'f') || ('0' ≤ c && c ≤ '9')

def load (file : PermissionsFile) : Option PermissionsRecord :=
  file.map fun parsed => { connectors := parsed.connectors.getD ∅, grants := parsed.grants }

def save (record : PermissionsRecord) : PermissionsFile :=
  some { connectors := some record.connectors, grants := record.grants }

namespace PermissionsRecord

variable (record : PermissionsRecord)

def toolsOf (serverName : String) : OrderedMap String ToolPolicy :=
  ((record.connectors.get? serverName).bind ConnectorPermissions.tools).getD ∅

def grantsOf (serverName : String) : List String :=
  (record.grants.bind fun grants => grants.get? serverName).getD []

end PermissionsRecord

def get (file : PermissionsFile) (serverName toolName : String) : ToolPolicy :=
  match (load file).bind fun record => (record.toolsOf serverName).get? toolName with
  | some .disallow => .disallow
  | _ => .allow

def getConnectorGrants (file : PermissionsFile) (serverName : String) : List String :=
  ((load file).map fun record => record.grantsOf serverName).getD []

def isConnectorGranted (file : PermissionsFile) (serverName wsId : String) : Bool :=
  if !isConnectorName serverName || !isWorkspaceId wsId then false
  else decide (wsId ∈ getConnectorGrants file serverName)

/-- An allowed tool is not listed, since that is the default. -/
def mergeTools (existing : OrderedMap String ToolPolicy) (tools : List (String × ToolPolicy)) :
    OrderedMap String ToolPolicy :=
  tools.foldl (fun merged tool =>
    match tool.2 with
    | .allow => merged.delete tool.1
    | .disallow => merged.set tool.1 .disallow) existing

/-- A connector without policies has no entry. -/
def PermissionsRecord.putTools (record : PermissionsRecord) (serverName : String)
    (merged : OrderedMap String ToolPolicy) : PermissionsRecord :=
  { record with
    connectors :=
      if merged.size = 0 then record.connectors.delete serverName
      else record.connectors.set serverName { tools := some merged } }

def setConnector (serverName : String) (tools : OrderedMap String ToolPolicy) (file : PermissionsFile) :
    Edit PermissionsFile :=
  let record := (load file).getD {}
  .writes (save (record.putTools serverName (mergeTools (record.toolsOf serverName) tools.entries)))

def deleteConnector (serverName : String) (file : PermissionsFile) : Edit PermissionsFile :=
  match load file with
  | none => .keeps
  | some record =>
      match record.connectors.get? serverName with
      | none => .keeps
      | some _ => .writes (save { record with connectors := record.connectors.delete serverName })

/-- A grant of a malformed name is refused. -/
def grantConnector (serverName wsId : String) (file : PermissionsFile) : Edit PermissionsFile :=
  if !isConnectorName serverName then .throws
  else if !isWorkspaceId wsId then .throws
  else
    let record := (load file).getD {}
    let grants := record.grants.getD ∅
    let existing := (grants.get? serverName).getD []
    if wsId ∈ existing then .keeps
    else .writes (save { record with grants := some (grants.set serverName (existing ++ [wsId])) })

/-- The last grant of a connector takes its key with it, and the last key the block. -/
def PermissionsRecord.putGrants (record : PermissionsRecord) (grants : ConnectorGrants) (serverName : String)
    (remaining : List String) : PermissionsRecord :=
  let left := if remaining = [] then grants.delete serverName else grants.set serverName remaining
  { record with grants := if left.size = 0 then none else some left }

def revokeConnector (serverName wsId : String) (file : PermissionsFile) : Edit PermissionsFile :=
  match load file with
  | none => .keeps
  | some record =>
      match record.grants with
      | none => .keeps
      | some grants =>
          match grants.get? serverName with
          | none => .keeps
          | some existing =>
              if wsId ∈ existing then
                .writes (save (record.putGrants grants serverName (existing.filter (· ≠ wsId))))
              else .keeps

/-- The calls that change the record of an owner. -/
inductive PermissionCall where
  | setConnector (serverName : String) (tools : OrderedMap String ToolPolicy)
  | deleteConnector (serverName : String)
  | grantConnector (serverName wsId : String)
  | revokeConnector (serverName wsId : String)
  deriving DecidableEq

def PermissionCall.edit : PermissionCall → PermissionsFile → Edit PermissionsFile
  | .setConnector serverName tools => Permissions.setConnector serverName tools
  | .deleteConnector serverName => Permissions.deleteConnector serverName
  | .grantConnector serverName wsId => Permissions.grantConnector serverName wsId
  | .revokeConnector serverName wsId => Permissions.revokeConnector serverName wsId

end NimbleBrain.Permissions

/- What is reported of a tool or a grant follows the last call about it, while no save overtakes another one. -/

namespace NimbleBrain.Permissions

open Library

/-- What a call meant of a tool. -/
def policyIntent (serverName toolName : String) : PermissionCall → Option ToolPolicy
  | .setConnector server tools => if server = serverName then tools.get? toolName else none
  | .deleteConnector server => if server = serverName then some .allow else none
  | .grantConnector _ _ | .revokeConnector _ _ => none

/-- What a call meant of a grant. -/
def grantIntent (serverName wsId : String) : PermissionCall → Option Bool
  | .grantConnector server workspace =>
      if isConnectorName server ∧ isWorkspaceId workspace ∧ server = serverName ∧ workspace = wsId then some true
      else none
  | .revokeConnector server workspace => if server = serverName ∧ workspace = wsId then some false else none
  | .setConnector _ _ | .deleteConnector _ => none

/-- The record that a call edits. -/
def recordOf (file : PermissionsFile) : PermissionsRecord := (load file).getD {}

@[simp] theorem recordOf_save (record : PermissionsRecord) : recordOf (save record) = record := rfl

theorem get_eq (file : PermissionsFile) (serverName toolName : String) :
    get file serverName toolName =
      if ((recordOf file).toolsOf serverName).get? toolName = some .disallow then .disallow else .allow := by
  rw [get, recordOf]
  cases load file with
  | none => rfl
  | some record =>
      rw [Option.bind_some, Option.getD_some]
      cases (record.toolsOf serverName).get? toolName with
      | none => rfl
      | some policy => cases policy <;> rfl

theorem getConnectorGrants_eq (file : PermissionsFile) (serverName : String) :
    getConnectorGrants file serverName = (recordOf file).grantsOf serverName := by
  rw [getConnectorGrants, recordOf]
  cases load file <;> rfl

theorem mergeTools_find? (tools : List (String × ToolPolicy)) (distinct : (tools.map Prod.fst).Nodup)
    (existing : OrderedMap String ToolPolicy) (toolName : String) :
    (mergeTools existing tools).get? toolName =
      match (tools.find? fun tool => tool.1 = toolName).map Prod.snd with
      | some .allow => none
      | some .disallow => some .disallow
      | none => existing.get? toolName := by
  induction tools generalizing existing with
  | nil => rfl
  | cons tool rest ih =>
      obtain ⟨name, policy⟩ := tool
      rw [List.map_cons, List.nodup_cons] at distinct
      rw [mergeTools, List.foldl_cons]
      change (mergeTools _ rest).get? toolName = _
      rw [ih distinct.2, List.find?_cons]
      by_cases same : name = toolName
      · subst same
        have absent : rest.find? (fun tool => tool.1 = name) = none := by
          rw [List.find?_eq_none]
          intro other member equal
          exact distinct.1 (List.mem_map.mpr ⟨other, member, of_decide_eq_true equal⟩)
        rw [absent]
        cases policy <;> simp [OrderedMap.get?_delete, OrderedMap.get?_set]
      · have other : ¬ toolName = name := fun equal => same equal.symm
        cases policy <;> simp [same, other, OrderedMap.get?_delete, OrderedMap.get?_set]

/-- A merged tool follows the input, and otherwise what was there. -/
theorem mergeTools_get? (tools existing : OrderedMap String ToolPolicy) (toolName : String) :
    (mergeTools existing tools.entries).get? toolName =
      match tools.get? toolName with
      | some .allow => none
      | some .disallow => some .disallow
      | none => existing.get? toolName :=
  mergeTools_find? tools.entries tools.distinct existing toolName

theorem putTools_get? (record : PermissionsRecord) (server : String) (merged : OrderedMap String ToolPolicy)
    (serverName toolName : String) :
    ((record.putTools server merged).toolsOf serverName).get? toolName =
      if serverName = server then merged.get? toolName else (record.toolsOf serverName).get? toolName := by
  rw [PermissionsRecord.toolsOf, PermissionsRecord.putTools]
  dsimp only
  by_cases same : serverName = server
  · subst same
    rw [if_pos rfl]
    split
    · next empty =>
      rw [OrderedMap.get?_delete, if_pos rfl, OrderedMap.get?_of_size_zero empty]
      rfl
    · rw [OrderedMap.get?_set_self]
      rfl
  · rw [if_neg same, PermissionsRecord.toolsOf]
    split
    · rw [OrderedMap.get?_delete, if_neg same]
    · rw [OrderedMap.get?_set, if_neg same]

theorem putGrants_of (record : PermissionsRecord) {grants : ConnectorGrants} (own : record.grants = some grants)
    (server : String) (remaining : List String) (serverName : String) :
    (record.putGrants grants server remaining).grantsOf serverName =
      if serverName = server then remaining else record.grantsOf serverName := by
  have left (left : ConnectorGrants) :
      PermissionsRecord.grantsOf { record with grants := if left.size = 0 then none else some left } serverName =
        (left.get? serverName).getD [] := by
    rw [PermissionsRecord.grantsOf]
    dsimp only
    split
    · next empty => rw [OrderedMap.get?_of_size_zero empty]; rfl
    · rfl
  rw [PermissionsRecord.putGrants, left, PermissionsRecord.grantsOf, own, Option.bind_some]
  split
  · next empty =>
    rw [OrderedMap.get?_delete, empty]
    split <;> rfl
  · rw [OrderedMap.get?_set]
    split <;> rfl

variable (file : PermissionsFile)

theorem setConnector_get (server : String) (tools : OrderedMap String ToolPolicy) (serverName toolName : String) :
    get ((setConnector server tools file).after file) serverName toolName =
      (policyIntent serverName toolName (.setConnector server tools)).getD (get file serverName toolName) := by
  change get (save ((recordOf file).putTools server (mergeTools ((recordOf file).toolsOf server) tools.entries)))
    serverName toolName = _
  rw [get_eq, recordOf_save, putTools_get?, get_eq, policyIntent]
  by_cases same : serverName = server
  · subst same
    rw [if_pos rfl, if_pos rfl, mergeTools_get?]
    cases tools.get? toolName with
    | none => rfl
    | some policy => cases policy <;> rfl
  · rw [if_neg same, if_neg (Ne.symm same), Option.getD_none]

/-- A call about policies leaves the grants alone. -/
theorem setConnector_grants (server : String) (tools : OrderedMap String ToolPolicy) (serverName : String) :
    getConnectorGrants ((setConnector server tools file).after file) serverName =
      getConnectorGrants file serverName := by
  rw [getConnectorGrants_eq, getConnectorGrants_eq]
  rfl

theorem deleteConnector_get (server serverName toolName : String) :
    get ((deleteConnector server file).after file) serverName toolName =
      (policyIntent serverName toolName (.deleteConnector server)).getD (get file serverName toolName) := by
  rw [policyIntent, deleteConnector]
  cases loaded : load file with
  | none =>
      change get file serverName toolName = _
      rw [get, loaded]
      by_cases same : server = serverName
      · rw [if_pos same]
        rfl
      · rw [if_neg same]
        rfl
  | some record =>
      dsimp only
      have own : recordOf file = record := by rw [recordOf, loaded, Option.getD_some]
      cases found : record.connectors.get? server with
      | none =>
          change get file serverName toolName = _
          split
          · next same =>
            rw [get_eq, own, PermissionsRecord.toolsOf, ← same, found]
            rfl
          · rfl
      | some _ =>
          change get (save _) serverName toolName = _
          rw [get_eq, recordOf_save, PermissionsRecord.toolsOf, OrderedMap.get?_delete]
          by_cases same : serverName = server
          · subst same
            rw [if_pos rfl, if_pos rfl]
            rfl
          · rw [if_neg same, if_neg (Ne.symm same), get_eq, own]
            rfl

theorem deleteConnector_grants (server serverName : String) :
    getConnectorGrants ((deleteConnector server file).after file) serverName =
      getConnectorGrants file serverName := by
  rw [deleteConnector]
  cases loaded : load file with
  | none => rfl
  | some record =>
      dsimp only
      split
      · rfl
      · rw [getConnectorGrants_eq, getConnectorGrants_eq, recordOf, recordOf, loaded]
        rfl

/-- A call about grants leaves the policies alone. -/
theorem grantConnector_get (server workspace serverName toolName : String) :
    get ((grantConnector server workspace file).after file) serverName toolName = get file serverName toolName := by
  rw [grantConnector]
  split
  · rfl
  split
  · rfl
  dsimp only
  split
  · rfl
  · rw [get_eq, get_eq]
    rfl

theorem revokeConnector_get (server workspace serverName toolName : String) :
    get ((revokeConnector server workspace file).after file) serverName toolName = get file serverName toolName := by
  rw [revokeConnector]
  cases loaded : load file with
  | none => rfl
  | some record =>
      dsimp only
      split
      · rfl
      split
      · rfl
      split
      · rw [get_eq, get_eq, recordOf, recordOf, loaded]
        rfl
      · rfl

theorem isConnectorGranted_eq (serverName wsId : String) :
    isConnectorGranted file serverName wsId =
      (isConnectorName serverName && isWorkspaceId wsId &&
        decide (wsId ∈ (recordOf file).grantsOf serverName)) := by
  rw [isConnectorGranted, getConnectorGrants_eq]
  cases isConnectorName serverName <;> cases isWorkspaceId wsId <;> rfl

theorem granted_of_grants {next : PermissionsFile} {serverName : String}
    (same : getConnectorGrants next serverName = getConnectorGrants file serverName) (wsId : String) :
    isConnectorGranted next serverName wsId = isConnectorGranted file serverName wsId := by
  rw [isConnectorGranted, isConnectorGranted, same]

theorem grantsOf_eq (record : PermissionsRecord) (serverName : String) :
    record.grantsOf serverName = ((record.grants.getD ∅).get? serverName).getD [] := by
  rw [PermissionsRecord.grantsOf]
  cases record.grants <;> rfl

theorem grantConnector_grants (server workspace serverName wsId : String) :
    isConnectorGranted ((grantConnector server workspace file).after file) serverName wsId =
      (grantIntent serverName wsId (.grantConnector server workspace)).getD
        (isConnectorGranted file serverName wsId) := by
  rw [grantIntent]
  by_cases named : isConnectorName server = true
  · by_cases placed : isWorkspaceId workspace = true
    · by_cases about : server = serverName ∧ workspace = wsId
      · obtain ⟨rfl, rfl⟩ := about
        rw [if_pos ⟨named, placed, rfl, rfl⟩, Option.getD_some, grantConnector, if_neg (by simp [named]),
          if_neg (by simp [placed])]
        dsimp only
        rw [← recordOf, ← grantsOf_eq, isConnectorGranted_eq, named, placed]
        split
        · next already =>
          rw [Edit.after]
          simpa using already
        · simp [Edit.after, grantsOf_eq, OrderedMap.get?_set_self]
      · rw [if_neg fun all => about all.2.2, Option.getD_none, grantConnector, if_neg (by simp [named]),
          if_neg (by simp [placed])]
        dsimp only
        rw [← recordOf, ← grantsOf_eq]
        split
        · rfl
        · rw [isConnectorGranted_eq, isConnectorGranted_eq, Edit.after, recordOf_save, grantsOf_eq]
          dsimp only
          rw [Option.getD_some, OrderedMap.get?_set]
          split
          · next same =>
            subst same
            have other : ¬ wsId = workspace := fun equal => about ⟨rfl, equal.symm⟩
            simp [other]
          · rw [← grantsOf_eq]
    · rw [if_neg (by simp [placed]), grantConnector, if_neg (by simp [named]), if_pos (by simp [placed])]
      rfl
  · rw [if_neg (by simp [named]), grantConnector, if_pos (by simp [named])]
    rfl

theorem revokeConnector_grants (server workspace serverName wsId : String) :
    isConnectorGranted ((revokeConnector server workspace file).after file) serverName wsId =
      (grantIntent serverName wsId (.revokeConnector server workspace)).getD
        (isConnectorGranted file serverName wsId) := by
  -- A revoke that keeps the file has not found the grant.
  have kept (absent : workspace ∉ (recordOf file).grantsOf server) : isConnectorGranted file serverName wsId =
      (grantIntent serverName wsId (.revokeConnector server workspace)).getD
        (isConnectorGranted file serverName wsId) := by
    rw [grantIntent]
    split
    · next about =>
      rw [Option.getD_some, isConnectorGranted_eq, ← about.1, ← about.2, decide_eq_false absent, Bool.and_false]
    · rfl
  rw [revokeConnector]
  cases loaded : load file with
  | none => exact kept (by simp [recordOf, loaded, PermissionsRecord.grantsOf])
  | some record =>
      have own : recordOf file = record := by rw [recordOf, loaded, Option.getD_some]
      dsimp only
      split
      · next missing => exact kept (by simp [own, PermissionsRecord.grantsOf, missing])
      · next grants has =>
        split
        · next missing => exact kept (by simp [own, PermissionsRecord.grantsOf, has, missing])
        · next existing found =>
          have listed : record.grantsOf server = existing := by
            rw [PermissionsRecord.grantsOf, has, Option.bind_some, found, Option.getD_some]
          split
          · rw [grantIntent, Edit.after, isConnectorGranted_eq, recordOf_save, putGrants_of record has,
              isConnectorGranted_eq, own]
            by_cases same : serverName = server
            · subst same
              rw [if_pos rfl, listed]
              by_cases equal : workspace = wsId
              · simp [equal]
              · simp [equal, Ne.symm equal]
            · rw [if_neg same, if_neg fun both => same both.1.symm, Option.getD_none]
          · next absent => exact kept (by rwa [own, listed])

theorem edit_get (call : PermissionCall) (serverName toolName : String) :
    get ((call.edit file).after file) serverName toolName =
      (policyIntent serverName toolName call).getD (get file serverName toolName) := by
  cases call with
  | setConnector server tools => exact setConnector_get file server tools serverName toolName
  | deleteConnector server => exact deleteConnector_get file server serverName toolName
  | grantConnector server workspace => exact grantConnector_get file server workspace serverName toolName
  | revokeConnector server workspace => exact revokeConnector_get file server workspace serverName toolName

theorem edit_granted (call : PermissionCall) (serverName wsId : String) :
    isConnectorGranted ((call.edit file).after file) serverName wsId =
      (grantIntent serverName wsId call).getD (isConnectorGranted file serverName wsId) := by
  cases call with
  | setConnector server tools => exact granted_of_grants file (setConnector_grants file server tools serverName) wsId
  | deleteConnector server => exact granted_of_grants file (deleteConnector_grants file server serverName) wsId
  | grantConnector server workspace => exact grantConnector_grants file server workspace serverName wsId
  | revokeConnector server workspace => exact revokeConnector_grants file server workspace serverName wsId

/-- What the owner is promised of the calls that returned. -/
structure ChangesKept (first : PermissionsFile) (shared : Shared PermissionCall PermissionsFile) : Prop where
  policies : ∀ serverName toolName : String, get shared.value serverName toolName =
    ((shared.returned.filterMap (policyIntent serverName toolName)).getLast?).getD (get first serverName toolName)
  grants : ∀ serverName wsId : String, isConnectorGranted shared.value serverName wsId =
    ((shared.returned.filterMap (grantIntent serverName wsId)).getLast?).getD
      (isConnectorGranted first serverName wsId)
  disallowed : ∀ (serverName toolName : String) (earlier later : List PermissionCall)
    (tools : OrderedMap String ToolPolicy),
    shared.returned = earlier ++ .setConnector serverName tools :: later →
    tools.get? toolName = some .disallow →
    (∀ call ∈ later, policyIntent serverName toolName call ≠ some .allow) →
      get shared.value serverName toolName = .disallow
  revoked : ∀ (serverName wsId : String) (earlier later : List PermissionCall),
    shared.returned = earlier ++ .revokeConnector serverName wsId :: later →
    .grantConnector serverName wsId ∉ later → isConnectorGranted shared.value serverName wsId = false

/-- The last of some reports is the one report that all of them are. -/
theorem last_of_all {Report : Type} {reports : List Report} {report : Report} (some' : reports ≠ [])
    (all : ∀ other ∈ reports, other = report) : reports.getLast? = some report := by
  rw [List.getLast?_eq_getLast_of_ne_nil some', all _ (List.getLast_mem some')]

/-- Changes are kept in every run in which each save lands on the file that its call has loaded. -/
theorem permission_changes_kept {first : PermissionsFile} {shared : Shared PermissionCall PermissionsFile}
    (reached : (sharedSystem PermissionCall.edit first).ReachedBy Shared.Undisturbed shared) :
    ChangesKept first shared := by
  have value := (Shared.Serial.of_reached reached).value
  have policies (serverName toolName : String) : get shared.value serverName toolName =
      ((shared.returned.filterMap (policyIntent serverName toolName)).getLast?).getD
        (get first serverName toolName) := by
    rw [value]
    exact Shared.observed_of_replay (get · serverName toolName) _
      (fun call file => edit_get file call serverName toolName) shared.returned
  have grants (serverName wsId : String) : isConnectorGranted shared.value serverName wsId =
      ((shared.returned.filterMap (grantIntent serverName wsId)).getLast?).getD
        (isConnectorGranted first serverName wsId) := by
    rw [value]
    exact Shared.observed_of_replay (isConnectorGranted · serverName wsId) _
      (fun call file => edit_granted file call serverName wsId) shared.returned
  refine ⟨policies, grants, ?_, ?_⟩
  · intro serverName toolName earlier later tools returned said unsaid
    have own : policyIntent serverName toolName (.setConnector serverName tools) = some .disallow := by
      rw [policyIntent, if_pos rfl, said]
    have last : ((.setConnector serverName tools :: later).filterMap (policyIntent serverName toolName)).getLast? =
        some .disallow := by
      apply last_of_all
      · rw [List.filterMap_cons_some own]
        exact List.cons_ne_nil _ _
      · intro report among
        obtain ⟨call, member, meant⟩ := List.mem_filterMap.mp among
        rcases List.mem_cons.mp member with rfl | after
        · exact Option.some.inj (meant.symm.trans own)
        · cases report with
          | allow => exact absurd meant (unsaid call after)
          | disallow => rfl
    rw [policies, returned, List.filterMap_append, List.getLast?_append, last]
    rfl
  · intro serverName wsId earlier later returned ungranted
    have own : grantIntent serverName wsId (.revokeConnector serverName wsId) = some false := by
      rw [grantIntent, if_pos ⟨rfl, rfl⟩]
    have last : ((.revokeConnector serverName wsId :: later).filterMap (grantIntent serverName wsId)).getLast? =
        some false := by
      apply last_of_all
      · rw [List.filterMap_cons_some own]
        exact List.cons_ne_nil _ _
      · intro report among
        obtain ⟨call, member, meant⟩ := List.mem_filterMap.mp among
        rcases List.mem_cons.mp member with rfl | after
        · exact Option.some.inj (meant.symm.trans own)
        · cases call with
          | grantConnector server workspace =>
              rw [grantIntent] at meant
              split at meant
              · next about => exact absurd after (about.2.2.1 ▸ about.2.2.2 ▸ ungranted)
              · cases meant
          | revokeConnector server workspace =>
              rw [grantIntent] at meant
              split at meant
              · exact (Option.some.inj meant).symm
              · cases meant
          | setConnector _ _ | deleteConnector _ => cases meant
    rw [grants, returned, List.filterMap_append, List.getLast?_append, last]
    rfl

def gmailGranted : PermissionsFile :=
  some { grants := some ((∅ : ConnectorGrants).set "gmail" ["ws_0123456789abcdef"]) }

def forbidSend : PermissionCall :=
  .setConnector "slack" ((∅ : OrderedMap String ToolPolicy).set "send" .disallow)

/-- A revoke runs between two calls about policies. -/
theorem permission_changes_kept_revoke :
    ∃ shared, (sharedSystem PermissionCall.edit gmailGranted).run { value := gmailGranted }
        [.begin forbidSend, .begin (.revokeConnector "gmail" "ws_0123456789abcdef"), .read 0, .write 0, .read 0,
          .write 0] = some shared ∧
      isConnectorGranted shared.value "gmail" "ws_0123456789abcdef" = false ∧
        get shared.value "slack" "send" = .disallow ∧ ChangesKept gmailGranted shared := by
  have reached : (sharedSystem PermissionCall.edit gmailGranted).ReachedBy Shared.Undisturbed
    { value := gmailGranted } := .start _ rfl
  have meets : (sharedSystem PermissionCall.edit gmailGranted).Meets Shared.Undisturbed { value := gmailGranted }
    [.begin forbidSend, .begin (.revokeConnector "gmail" "ws_0123456789abcdef"), .read 0, .write 0, .read 0,
      .write 0] := by decide +kernel
  refine ⟨_, rfl, ?_, ?_, permission_changes_kept (reached.run meets rfl)⟩ <;> decide +kernel

/-- A call about policies loads the file before a revoke and saves it after it. The grant is back. -/
theorem save_restores_revoked_grant :
    ∃ shared, (sharedSystem PermissionCall.edit gmailGranted).Reachable shared ∧
      shared.returned = [.revokeConnector "gmail" "ws_0123456789abcdef", forbidSend] ∧
        isConnectorGranted shared.value "gmail" "ws_0123456789abcdef" = true := by
  have reached : (sharedSystem PermissionCall.edit gmailGranted).Reachable { value := gmailGranted } := .start _ rfl
  have ran := reached.run (show (sharedSystem PermissionCall.edit gmailGranted).run { value := gmailGranted }
    [.begin forbidSend, .begin (.revokeConnector "gmail" "ws_0123456789abcdef"), .read 0, .read 0, .write 1,
      .write 0] = some _ from rfl)
  exact ⟨_, ran, rfl, by decide +kernel⟩

end NimbleBrain.Permissions
