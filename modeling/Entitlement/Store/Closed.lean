import Entitlement.Store

/-!
# The relational store without a connection

Every request fails before anything is sent.
-/

namespace Entitlement

/-- A relational store whose connections are closed. -/
structure Closed where
deriving DecidableEq

namespace Closed

def refuse {α : Type} (task : StorageTask) : Except Failure α := .error (.storage task .closed)

instance : Store Closed where
  createRole _ _ := refuse .beginTransaction
  findRole _ id := refuse (.findRole id)
  listRoles _ := refuse .listRoles
  editRole _ id _ := refuse (.editRole id)
  deleteRole _ id := refuse (.deleteRole id)
  addMember _ group subject := refuse (.addMember subject group)
  removeMember _ group subject := refuse (.removeMember subject group)
  membersOf _ group := refuse (.listMembers group)
  rolesOf _ subject := refuse (.listRolesOf subject)
  findEntry _ target _ := refuse (.findEntry target)
  addPermission _ _ _ _ := refuse .beginTransaction
  removePermission _ _ _ _ := refuse .beginTransaction
  deleteEntriesOf _ id := refuse (.deleteEntriesOf id)
  entriesOn _ target := refuse (.listEntries target)
  grantedObjects _ _ permission := refuse (.listGranted permission)
  related _ object relation := refuse (.followRelation relation object)
  setRelation _ _ _ _ := refuse .beginTransaction
  clearRelation _ child relation := refuse (.clearRelation relation child)
  record _ _ := refuse .appendAudit
  trail _ _ := refuse .listAudit

end Closed

end Entitlement
