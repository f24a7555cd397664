import Entitlement.Access.Explanation
import Entitlement.Json

/-!
# Views

Roles, entries, conditions and the rest as JSON, the way clients see them.
-/

namespace Entitlement

/-- An object, model and key apart. -/
def Object.view (object : Object) : Json :=
  .object [("content_type", .text object.model.toText), ("object_id", .text object.key)]

/-- Permissions in ascending order. -/
def viewPermissions (permissions : SortedSet Permission) : Json :=
  .texts (permissions.toList.map Permission.toText)

def Role.view (role : Role) : Json :=
  .object [
    ("role_id", .text role.id.toText), ("label", .text role.label),
    ("permissions", viewPermissions role.permissions), ("groups", .texts role.groups.toList)]

def Entry.view (entry : Entry) : Json :=
  .object [
    ("acl_id", .text entry.id.toText), ("target", entry.target.view),
    ("role_id", .text entry.role.toText), ("permissions", viewPermissions entry.permissions)]

def Outcome.view (outcome : Outcome) : Json :=
  .object [
    ("change", .text outcome.effect.toText), ("acl", .ofOption Entry.view outcome.entry)]

/-- The permissions that a role has on an object by inheritance. -/
def viewInheritance (role : RoleId) (permissions : SortedSet Permission) : Json :=
  .object [("role_id", .text role.toText), ("permissions", viewPermissions permissions)]

mutual

/-- A condition, each node with its kind. -/
def Condition.view : Condition → Json
  | .granted object => .object [("kind", .text "granted"), ("object", object.view)]
  | .unreachable => .object [("kind", .text "unreachable")]
  | .any branches => .object [("kind", .text "any"), ("branches", .array (viewBranches branches))]
  | .all branches => .object [("kind", .text "all"), ("branches", .array (viewBranches branches))]

/-- The branches of a condition. -/
def viewBranches : List Condition → List Json
  | [] => []
  | branch :: rest => branch.view :: viewBranches rest

end

def Explanation.view (explanation : Explanation) : Json :=
  .object [
    ("granted", .bool explanation.granted),
    ("access_level", .ofOption (fun access => .text access.toText) explanation.access),
    ("granted_objects", .array (explanation.grantedObjects.map Object.view)),
    ("condition", explanation.condition.view)]

def AuditEntry.view (entry : AuditEntry) : Json :=
  .object [
    ("subject", .text entry.subject), ("action", .text entry.action),
    ("resource_type", .text entry.resourceType), ("resource_id", .text entry.resourceId.toText),
    ("detail", .ofOption .text entry.detail)]

/-- A declared permission, its space apart. -/
def LabelledPermission.view (permission : LabelledPermission) : Json :=
  .object [
    ("permission", .text permission.id.toText), ("namespace", .text permission.id.space),
    ("label", .text permission.label)]

/-- A model with what is registered for it. -/
def viewModel (registry : Registry) (model : Model) : Json :=
  .object [
    ("model", .text model.toText), ("permissions", viewPermissions (registry.permissionsOf model)),
    ("inherits_through",
      .texts (((registry.pathsOf model).toOption.getD []).map Path.toText))]

/-- A report, which says no more than its message. -/
def Report.view (report : Report) : Json := .object [("message", .text report.message)]

end Entitlement
