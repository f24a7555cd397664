import Entitlement.Access.Explanation
import Entitlement.Administration.Relations
import Entitlement.Administration.Roles

/-!
# Operations

Everything that clients may ask of a site, as data: `perform` carries an operation out on behalf of a
user, and `after` gives the site after a run of operations, whether or not each of them succeeded.
-/

namespace Entitlement

/-- What clients may ask for. -/
inductive Operation where
  | listPermissions
  | listModels
  | listRoles
  /-- The role gets the identifier, or a fresh one. -/
  | createRole (label : String) (id : Option RoleId)
  | viewRole (id : RoleId)
  | deleteRole (id : RoleId)
  | grantToRole (id : RoleId) (permission : Permission)
  | revokeFromRole (id : RoleId) (permission : Permission)
  | attachGroup (id : RoleId) (group : String)
  | detachGroup (id : RoleId) (group : String)
  | listMembers (group : String)
  | addMember (group subject : String)
  | removeMember (group subject : String)
  | viewEntries (target : Object)
  | grant (target : Object) (permission : Permission) (role : RoleId)
  | revoke (target : Object) (permission : Permission) (role : RoleId)
  | viewInherited (target : Object) (role : RoleId)
  | setRelation (child : Object) (relation : String) (parent : Object)
  | clearRelation (child : Object) (relation : String)
  | restrict (permission : Permission) (candidates : List Object)
  | explain (permission : Permission) (target : Object)
  | listAudit (query : AuditQuery)
deriving DecidableEq

/-- What an operation answers. -/
inductive Answer where
  | done
  | permissions (permissions : List LabelledPermission)
  | models (registry : Registry)
  | roles (roles : List Role)
  | created (role : Role)
  | role (role : Role)
  | members (subjects : List String)
  | entries (entries : List Entry)
  | outcome (outcome : Outcome)
  | inherited (role : RoleId) (permissions : SortedSet Permission)
  | objects (objects : List Object)
  | explanation (explanation : Explanation)
  | audit (entries : List AuditEntry)

namespace Site

variable {σ : Type} [Store σ]

/-- Carries an operation out for a user. -/
def perform (actor : User) : Operation → Attempt (Site σ) Answer
  | .listPermissions => .look fun site => .ok (.permissions site.registry.permissionList)
  | .listModels => .look fun site => .ok (.models site.registry)
  | .listRoles => .look fun site => (site.listRoles actor).map .roles
  | .createRole label id => return .created (← createRole actor label id)
  | .viewRole id => .look fun site => (site.viewRole actor id).map .role
  | .deleteRole id => do
    deleteRole actor id
    return .done
  | .grantToRole id permission => return .role (← grantToRole actor id permission)
  | .revokeFromRole id permission => return .role (← revokeFromRole actor id permission)
  | .attachGroup id group => return .role (← attachGroup actor id group)
  | .detachGroup id group => return .role (← detachGroup actor id group)
  | .listMembers group => .look fun site => (site.listMembers actor group).map .members
  | .addMember group subject => do
    addMember actor group subject
    return .done
  | .removeMember group subject => do
    removeMember actor group subject
    return .done
  | .viewEntries target => .look fun site => (site.viewEntries actor target).map .entries
  | .grant target permission role => return .outcome (← grantFor actor target permission role)
  | .revoke target permission role => return .outcome (← revokeFor actor target permission role)
  | .viewInherited target role =>
    .look fun site => (site.viewInherited actor target role).map (.inherited role)
  | .setRelation child relation parent => do
    setRelation actor child relation parent
    return .done
  | .clearRelation child relation => do
    clearRelation actor child relation
    return .done
  | .restrict permission candidates =>
    .look fun site => (site.restrict permission id candidates actor).map .objects
  | .explain permission target =>
    .look fun site => (site.explain permission target actor).map .explanation
  | .listAudit query => .look fun site => (site.listAudit actor query).map .audit

/-- The site after some operations, each for its user. -/
def after (site : Site σ) (operations : List (User × Operation)) : Site σ :=
  operations.foldl (fun site (actor, operation) => (perform actor operation site).2) site

end Site

end Entitlement
