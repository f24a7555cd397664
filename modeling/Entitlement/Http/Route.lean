import Entitlement.Text.Cut

/-!
# Routes

The paths of the interface, each with what stands in the places of its parameters, not yet unescaped.
A parameter at the end of a path is not empty; one inside may be.
-/

namespace Entitlement.Http

/-- A path of the interface. -/
inductive Route where
  | health
  | permissions
  | models
  | roles
  | role (id : String)
  | rolePermissions (id : String)
  | rolePermission (id permission : String)
  | roleGroups (id : String)
  | roleGroup (id group : String)
  | members (group : String)
  | member (group subject : String)
  | entries (model key : String)
  | grant (model key : String)
  | revoke (model key : String)
  | inherited (model key role : String)
  | relation (model key relation : String)
  | restrict
  | explain
  | auditLog
deriving DecidableEq

namespace Route

/-- The route of the segments of a path, the empty one before the first slash aside. -/
def ofSegments? : List String → Option Route
  | ["health"] => some .health
  | ["api", "permissions"] => some .permissions
  | ["api", "models"] => some .models
  | ["api", "roles"] => some .roles
  | ["api", "roles", id] => if id = "" then none else some (.role id)
  | ["api", "roles", id, "permissions"] => some (.rolePermissions id)
  | ["api", "roles", id, "permissions", permission] =>
    if permission = "" then none else some (.rolePermission id permission)
  | ["api", "roles", id, "groups"] => some (.roleGroups id)
  | ["api", "roles", id, "groups", group] =>
    if group = "" then none else some (.roleGroup id group)
  | ["api", "groups", group, "members"] => some (.members group)
  | ["api", "groups", group, "members", subject] =>
    if subject = "" then none else some (.member group subject)
  | ["api", "objects", model, key, "acls"] => some (.entries model key)
  | ["api", "objects", model, key, "acls", "grant"] => some (.grant model key)
  | ["api", "objects", model, key, "acls", "revoke"] => some (.revoke model key)
  | ["api", "objects", model, key, "acls", id, "inherited"] => some (.inherited model key id)
  | ["api", "objects", model, key, "relations", name] =>
    if name = "" then none else some (.relation model key name)
  | ["api", "access", "restrict"] => some .restrict
  | ["api", "access", "explain"] => some .explain
  | ["api", "audit-log"] => some .auditLog
  | _ => none

/-- The route of a path. -/
def ofPath? (path : String) : Option Route :=
  match Text.split '/' path with
  | "" :: segments => ofSegments? segments
  | _ => none

end Route

end Entitlement.Http
