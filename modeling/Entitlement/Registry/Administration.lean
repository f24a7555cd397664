import Entitlement.Attempt
import Entitlement.Registry

/-!
# Permissions on the administration itself

The permissions that guard entries and roles, and the model of roles, whose objects are access
controlled like any other.
-/

namespace Entitlement

/-- To grant and revoke permissions on an object. -/
def editEntries : Permission := ⟨"acls", "acl_edit", by decide, by decide⟩

/-- To see the entries of an object. -/
def viewEntries : Permission := ⟨"acls", "acl_view", by decide, by decide⟩

def createRoles : Permission := ⟨"permissions", "role_create", by decide, by decide⟩

def deleteRoles : Permission := ⟨"permissions", "role_delete", by decide, by decide⟩

/-- To change a role's permissions, groups and their members. -/
def editRoles : Permission := ⟨"permissions", "role_edit", by decide, by decide⟩

def viewRoles : Permission := ⟨"permissions", "role_view", by decide, by decide⟩

/-- The model of roles. -/
def roleModel : Model := ⟨"permissions", "role", by decide, by decide⟩

/-- A role as an access controlled object. -/
def roleObject (role : RoleId) : Object := ⟨roleModel, role.toText⟩

namespace Registry

/-- Declares a space and its permissions, each as a name and a label. -/
def declareFamily (name label : String) (permissions : List (String × String)) :
    Attempt Registry Unit := do
  let space ← .step (·.declareSpace name label)
  for (name, label) in permissions do
    let _ ← Attempt.step (·.declarePermission space name label)

def declareAdministration : Attempt Registry Unit := do
  declareFamily "acls" "Access control lists"
    [("acl_edit", "Edit ACLs"), ("acl_view", "View ACLs")]
  declareFamily "permissions" "Permissions"
    [("role_create", "Create roles"), ("role_delete", "Delete roles"),
      ("role_edit", "Edit roles"), ("role_view", "View roles")]
  .advance (·.register roleModel [editEntries, viewEntries, deleteRoles, editRoles, viewRoles])

end Registry

end Entitlement
