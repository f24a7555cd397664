import Entitlement.Entry
import Entitlement.Path
import Entitlement.Schema

/-!
# Failures

The causes for which an operation fails, and the report of each: its kind, by which callers tell
failures apart, and its wording.
-/

namespace Entitlement

/-- What a store was doing when a statement of its failed. -/
inductive StorageTask where
  | beginTransaction
  | persistRole (label : String)
  | persistPermissions (role : RoleId)
  | persistGroups (role : RoleId)
  | findRole (role : RoleId)
  | listRoles
  | editRole (role : RoleId)
  | deleteRole (role : RoleId)
  | addMember (subject group : String)
  | removeMember (subject group : String)
  | listMembers (group : String)
  | listRolesOf (subject : String)
  | findEntry (target : Object)
  | saveEntry (target : Object)
  | addPermission (permission : Permission) (entry : EntryId)
  | lockEntry (target : Object)
  | removePermission (permission : Permission) (entry : EntryId)
  | readEntry (entry : EntryId)
  | deleteEntry (entry : EntryId)
  | deleteEntriesOf (role : RoleId)
  | listEntries (target : Object)
  | listGranted (permission : Permission)
  | followRelation (relation : String) (object : Object)
  | walkAncestors (parent : Object)
  | setRelation (relation : String) (child : Object)
  | clearRelation (relation : String) (child : Object)
  | appendAudit
  | listAudit
deriving DecidableEq

def StorageTask.toText : StorageTask → String
  | .beginTransaction => "failed to begin transaction"
  | .persistRole label => "failed to persist role '" ++ label ++ "'"
  | .persistPermissions role => "failed to persist permissions of role '" ++ role.toText ++ "'"
  | .persistGroups role => "failed to persist groups of role '" ++ role.toText ++ "'"
  | .findRole role => "failed to find role '" ++ role.toText ++ "'"
  | .listRoles => "failed to list roles"
  | .editRole role => "failed to edit role '" ++ role.toText ++ "'"
  | .deleteRole role => "failed to delete role '" ++ role.toText ++ "'"
  | .addMember subject group => "failed to add '" ++ subject ++ "' to group '" ++ group ++ "'"
  | .removeMember subject group =>
    "failed to remove '" ++ subject ++ "' from group '" ++ group ++ "'"
  | .listMembers group => "failed to list members of group '" ++ group ++ "'"
  | .listRolesOf subject => "failed to list roles for subject '" ++ subject ++ "'"
  | .findEntry target => "failed to find access control list for '" ++ target.toText ++ "'"
  | .saveEntry target => "failed to save access control list for '" ++ target.toText ++ "'"
  | .addPermission permission entry =>
    "failed to add '" ++ permission.toText ++ "' to access control list '" ++ entry.toText ++ "'"
  | .lockEntry target => "failed to lock access control list for '" ++ target.toText ++ "'"
  | .removePermission permission entry =>
    "failed to remove '" ++ permission.toText ++ "' from access control list '" ++
      entry.toText ++ "'"
  | .readEntry entry => "failed to read access control list '" ++ entry.toText ++ "'"
  | .deleteEntry entry => "failed to delete empty access control list '" ++ entry.toText ++ "'"
  | .deleteEntriesOf role =>
    "failed to delete access control lists of role '" ++ role.toText ++ "'"
  | .listEntries target => "failed to list access control lists for '" ++ target.toText ++ "'"
  | .listGranted permission => "failed to list objects granted '" ++ permission.toText ++ "'"
  | .followRelation relation object =>
    "failed to resolve relation '" ++ relation ++ "' of '" ++ object.toText ++ "'"
  | .walkAncestors parent => "failed to walk ancestors of '" ++ parent.toText ++ "'"
  | .setRelation relation child =>
    "failed to set relation '" ++ relation ++ "' of '" ++ child.toText ++ "'"
  | .clearRelation relation child =>
    "failed to clear relation '" ++ relation ++ "' of '" ++ child.toText ++ "'"
  | .appendAudit => "failed to append audit event"
  | .listAudit => "failed to list audit log entries"

/-- Why a statement fails. -/
inductive StorageFault where
  /-- There is no connection to send it on. -/
  | closed
  /-- It names a table that is not in place. -/
  | missingTable (table : Table)
  /-- A text that it sends has U+0000 in it. -/
  | nulText
  /-- An entry is to be stored for a role that is not. -/
  | noSuchRole
deriving DecidableEq

def StorageFault.toText : StorageFault → String
  | .closed => "attempted to acquire a connection on a closed pool"
  | .missingTable table =>
    "error returned from database: relation \"" ++ table.toText ++ "\" does not exist"
  | .nulText => "error returned from database: invalid byte sequence for encoding \"UTF8\": 0x00"
  | .noSuchRole =>
    "error returned from database: insert or update on table \"access_control_lists\" violates " ++
      "foreign key constraint \"access_control_lists_role_id_fkey\""

/-- Why an operation fails. -/
inductive Failure where
  /-- A text is refused. -/
  | malformed (cause : Malformed)
  /-- The space is declared under another label. -/
  | spaceTaken (space label : String)
  /-- A permission of a space that is not declared. -/
  | spaceUndeclared (space : String)
  /-- The permission is declared under another label. -/
  | permissionTaken (permission : Permission) (label : String)
  /-- A permission to be registered for a model is not declared. -/
  | permissionUndeclared (permission : Permission) (model : Model)
  | proxyOfItself (model : Model)
  | proxyOfProxy (base : Model)
  /-- The model to become a proxy has registrations. -/
  | proxyHasOwn (model : Model)
  /-- A registration for a model that stands for another one. -/
  | registeredOnProxy (model base : Model)
  | unknownPermission (permission : Permission)
  | unknownModel (model : Model)
  /-- The permission means nothing for objects of the model. -/
  | notApplicable (permission : Permission) (model : Model)
  | roleMissing (role : RoleId)
  | labelTaken (label : String)
  /-- The user may not know of the object. -/
  | objectHidden (target : Object)
  /-- The user may not do this to the object. -/
  | objectForbidden (permission : Permission) (target : Object)
  /-- The subject holds none of the permissions on every object. -/
  | permissionsMissing (subject : String) (permissions : List Permission)
  | blankMembership
  /-- The relation would make the object its own ancestor. -/
  | ownAncestor (relation : String) (child : Object)
  /-- The relation to be written has more than one hop. -/
  | manyHops (relation : String)
  | unauthenticated
  | storage (task : StorageTask) (fault : StorageFault)
  /-- Following a relation fails. -/
  | unresolvable (text : String)
  | undecodableModel (model : String) (cause : Malformed)
  | undecodableObject (model key : String) (cause : Malformed)
  | undecodablePermission (permission : String) (cause : Malformed)
  | undecodableRole (role : RoleId) (cause : Malformed)
  | settingMissing (name : String)
  | settingBlank (name : String)
  | unknownBackend (name : String)
  | badHost (host : String)
deriving DecidableEq

/-- A failure as callers see it: its kind, and what there is to say about it. -/
inductive Report where
  | validation (text : String)
  | notFound (text : String)
  | conflict (text : String)
  | unauthorized (text : String)
  | forbidden (text : String)
  | permissionNotValid (permission model : String)
  | unknownModel (model : String)
  | internal (text : String)
deriving DecidableEq

def Report.message : Report → String
  | .validation text => "validation error: " ++ text
  | .notFound text => "not found: " ++ text
  | .conflict text => "conflict: " ++ text
  | .unauthorized text => "unauthorized: " ++ text
  | .forbidden text => "forbidden: " ++ text
  | .permissionNotValid permission model =>
    "permission '" ++ permission ++ "' is not valid for model '" ++ model ++ "'"
  | .unknownModel model => "model '" ++ model ++ "' is not registered for access control"
  | .internal text => "internal error: " ++ text

def Malformed.report (cause : Malformed) : Report := .validation cause.toText

def Failure.report : Failure → Report
  | .malformed cause => cause.report
  | .spaceTaken space label =>
    .conflict ("permission namespace '" ++ space ++ "' is already declared as '" ++ label ++ "'")
  | .spaceUndeclared space =>
    .validation ("permission namespace '" ++ space ++ "' must be declared before its permissions")
  | .permissionTaken permission label =>
    .conflict ("permission '" ++ permission.toText ++ "' is already declared as '" ++ label ++ "'")
  | .permissionUndeclared permission model =>
    .validation ("cannot register undeclared permission '" ++ permission.toText ++
      "' for model '" ++ model.toText ++ "'")
  | .proxyOfItself model => .validation ("model '" ++ model.toText ++ "' cannot proxy itself")
  | .proxyOfProxy base =>
    .validation ("model '" ++ base.toText ++ "' is itself a proxy and cannot be proxied")
  | .proxyHasOwn model =>
    .conflict ("model '" ++ model.toText ++ "' already has its own registrations")
  | .registeredOnProxy model base =>
    .conflict ("model '" ++ model.toText ++ "' is a proxy of '" ++ base.toText ++
      "'; register on the base model")
  | .unknownPermission permission =>
    .validation ("unknown permission '" ++ permission.toText ++ "'")
  | .unknownModel model => .unknownModel model.toText
  | .notApplicable permission model => .permissionNotValid permission.toText model.toText
  | .roleMissing role => .notFound ("role '" ++ role.toText ++ "' was not found")
  | .labelTaken label => .conflict ("role '" ++ label ++ "' already exists")
  | .objectHidden target => .notFound ("object '" ++ target.toText ++ "' was not found")
  | .objectForbidden permission target =>
    .forbidden ("permission '" ++ permission.toText ++ "' is required on '" ++ target.toText ++ "'")
  | .permissionsMissing subject permissions =>
    .forbidden ("subject '" ++ subject ++ "' is missing any of the permissions '" ++
      Text.join "', '" (permissions.map Permission.toText) ++ "'")
  | .blankMembership => .validation "group and subject must not be empty"
  | .ownAncestor relation child =>
    .validation ("relation '" ++ relation ++ "' of '" ++ child.toText ++
      "' would make it its own ancestor")
  | .manyHops relation => .validation ("relation '" ++ relation ++ "' must name a single hop")
  | .unauthenticated => .unauthorized "authentication required"
  | .storage task fault => .internal (task.toText ++ ": " ++ fault.toText)
  | .unresolvable text => .internal text
  | .undecodableModel model cause =>
    .internal ("failed to decode content type '" ++ model ++ "': " ++ cause.report.message)
  | .undecodableObject model key cause =>
    .internal ("failed to decode object '" ++ model ++ ":" ++ key ++ "': " ++ cause.report.message)
  | .undecodablePermission permission cause =>
    .internal ("failed to decode permission '" ++ permission ++ "': " ++ cause.report.message)
  | .undecodableRole role cause =>
    .internal ("failed to decode role '" ++ role.toText ++ "': " ++ cause.report.message)
  | .settingMissing name => .validation (name ++ " is required")
  | .settingBlank name => .validation (name ++ " must not be empty")
  | .unknownBackend name =>
    .validation ("STORAGE_BACKEND must be either 'postgres' or 'memory', got '" ++ name ++ "'")
  | .badHost host => .internal ("invalid API_HOST '" ++ host ++ "': invalid IP address syntax")

/-- A refused text as a failure. -/
def refused {α : Type} : Except Malformed α → Except Failure α := Except.mapError .malformed

/-! ### Runs taken apart -/

theorem bind_ok {ε α β : Type} {first : Except ε α} {next : α → Except ε β} {b : β}
    (h : (first >>= next) = .ok b) : ∃ a, first = .ok a ∧ next a = .ok b := by
  cases first with
  | error failure => cases h
  | ok a => exact ⟨a, rfl, h⟩

theorem map_ok {ε α β : Type} {first : Except ε α} {f : α → β} {b : β}
    (h : first.map f = .ok b) : ∃ a, first = .ok a ∧ f a = b := by
  cases first with
  | error failure => cases h
  | ok a => exact ⟨a, rfl, Except.ok.inj h⟩

theorem forM_ok {α : Type} {check : α → Except Failure Unit} {as : List α}
    (h : as.forM check = .ok ()) : ∀ a ∈ as, check a = .ok () := by
  induction as with
  | nil => simp
  | cons a rest ih =>
    obtain ⟨_, first, others⟩ := bind_ok h
    exact List.forall_mem_cons.mpr ⟨first, ih others⟩

theorem mapError_ok {ε ε' α : Type} {read : Except ε α} {f : ε → ε'} {a : α}
    (h : read.mapError f = .ok a) : read = .ok a := by
  cases read with
  | error cause => cases h
  | ok b => exact congrArg Except.ok (Except.ok.inj h)

theorem refused_ok {α : Type} {read : Except Malformed α} {a : α} (h : refused read = .ok a) :
    read = .ok a :=
  mapError_ok h

theorem ok_of_toOption {α : Type} {read : Except Failure α} {a : α} (h : read.toOption = some a) :
    read = .ok a := by
  cases read with
  | error failure => cases h
  | ok b => exact congrArg Except.ok (Option.some.inj h)

end Entitlement
