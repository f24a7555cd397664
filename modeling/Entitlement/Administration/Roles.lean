import Entitlement.Administration.Entries

/-!
# Administration of roles and groups

Roles are created, seen, changed and deleted on behalf of a user who may do so: everywhere for
creating them and for group members, and else on the role as an object. Each change leaves an audit
event.
-/

namespace Entitlement.Site

variable {σ : Type} [Store σ]

def roleEvent (actor : User) (action : AuditAction) (role : Role) (detail : String) :
    AuditEvent where
  subject := actor.subject
  action
  resourceType := "role"
  resourceId := .text role.id.toText
  detail := some detail

def recordOnRole (actor : User) (action : AuditAction) (role : Role) (detail : String) :
    Attempt (Site σ) Unit :=
  record (roleEvent actor action role detail)

/-- Creates a role under the given identifier, or a fresh one. -/
def createRole (actor : User) (label : String) (id : Option RoleId) : Attempt (Site σ) Role := do
  Attempt.look fun site => site.requireEverywhere actor createRoles
  let label ← Attempt.given (refused (filledText label))
  let role := Role.bare (← newRoleId id) label
  put fun store => Store.createRole store role
  recordOnRole actor .roleCreated role ("created role '" ++ role.label ++ "'")
  return role

/-- The roles that the user may see, by label. -/
def listRoles (site : Site σ) (actor : User) : Except Failure (List Role) := do
  let roles ← Store.listRoles site.store
  site.restrict viewRoles (fun role : Role => roleObject role.id) roles actor

/-- A role, for a user who may see it; to others it is missing. -/
def viewRole (site : Site σ) (actor : User) (id : RoleId) : Except Failure Role := do
  let role ← site.role id
  site.require viewRoles (roleObject id) actor .hidden
  return role

def deleteRole (actor : User) (id : RoleId) : Attempt (Site σ) Unit := do
  let role ← Attempt.look fun site => site.role id
  Attempt.look fun site => site.require deleteRoles (roleObject id) actor .forbidden
  let removed ← change fun store => Store.deleteEntriesOf store id
  put fun store => Store.deleteRole store id
  recordOnRole actor .roleDeleted role
    ("deleted role '" ++ role.label ++ "' and " ++ toString removed ++ " object entries")

def editDetail : RoleEdit → String
  | .grant permission => "granted '" ++ permission.toText ++ "'"
  | .revoke permission => "revoked '" ++ permission.toText ++ "'"
  | .attach group => "attached group '" ++ group ++ "'"
  | .detach group => "detached group '" ++ group ++ "'"

/-- Edits a role, and gives it as it stands afterwards. -/
def editRole (actor : User) (id : RoleId) (edit : RoleEdit) : Attempt (Site σ) Role := do
  let role ← Attempt.look fun site => site.role id
  Attempt.look fun site => site.require editRoles (roleObject id) actor .forbidden
  let changed ← change fun store => Store.editRole store id edit
  if ! changed then return role
  let role ← Attempt.look fun site => site.role id
  recordOnRole actor .roleEdited role (editDetail edit)
  return role

/-- Grants a declared permission to a role on every object. -/
def grantToRole (actor : User) (id : RoleId) (permission : Permission) : Attempt (Site σ) Role := do
  let _ ← Attempt.look fun site => site.registry.validate permission
  editRole actor id (.grant permission)

/-- Revokes a permission that a role has on every object. -/
def revokeFromRole (actor : User) (id : RoleId) (permission : Permission) :
    Attempt (Site σ) Role :=
  editRole actor id (.revoke permission)

/-- Gives a role to the members of a group. -/
def attachGroup (actor : User) (id : RoleId) (group : String) : Attempt (Site σ) Role := do
  let group ← Attempt.given (refused (groupName group))
  editRole actor id (.attach group)

/-- Takes a role from the members of a group. -/
def detachGroup (actor : User) (id : RoleId) (group : String) : Attempt (Site σ) Role :=
  editRole actor id (.detach (Text.trim group))

/-! ### Group members -/

/-- A group and a subject as they are stored: neither blank, nor with white space around it. -/
def membership (group subject : String) : Except Failure (String × String) :=
  if Text.allBlank group || Text.allBlank subject then .error .blankMembership
  else .ok (Text.trim group, Text.trim subject)

def groupEvent (actor : User) (group detail : String) : AuditEvent where
  subject := actor.subject
  action := .membershipChanged
  resourceType := "group"
  resourceId := .text group
  detail := some detail

def recordOnGroup (actor : User) (group detail : String) : Attempt (Site σ) Unit :=
  record (groupEvent actor group detail)

def addMember (actor : User) (group subject : String) : Attempt (Site σ) Unit := do
  Attempt.look fun site => site.requireEverywhere actor editRoles
  let (group, subject) ← Attempt.given (membership group subject)
  put fun store => Store.addMember store group subject
  recordOnGroup actor group ("added '" ++ subject ++ "' to '" ++ group ++ "'")

def removeMember (actor : User) (group subject : String) : Attempt (Site σ) Unit := do
  Attempt.look fun site => site.requireEverywhere actor editRoles
  let (group, subject) ← Attempt.given (membership group subject)
  put fun store => Store.removeMember store group subject
  recordOnGroup actor group ("removed '" ++ subject ++ "' from '" ++ group ++ "'")

def listMembers (site : Site σ) (actor : User) (group : String) : Except Failure (List String) := do
  site.requireEverywhere actor viewRoles
  Store.membersOf site.store group

def listAudit (site : Site σ) (actor : User) (query : AuditQuery) :
    Except Failure (List AuditEntry) := do
  site.requireEverywhere actor viewRoles
  Store.trail site.store query

end Entitlement.Site
