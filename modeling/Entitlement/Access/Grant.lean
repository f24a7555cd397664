import Entitlement.Access.Restriction

/-!
# Granting on an object

Granting and revoking permissions of a role on one object. A permission is granted only where it
means something, and only to a stored role; revoking asks for neither.
-/

namespace Entitlement.Site

variable {σ : Type} [Store σ]

def grant (target : Object) (permission : Permission) (role : RoleId) :
    Attempt (Site σ) Outcome := do
  let applies ← .look fun site => .ok (site.registry.applies target.model permission)
  if ! applies then Attempt.fail (.notApplicable permission target.model)
  let _ ← Attempt.look fun site => site.role role
  change fun store => Store.addPermission store target role permission

def revoke (target : Object) (permission : Permission) (role : RoleId) :
    Attempt (Site σ) Outcome :=
  change fun store => Store.removePermission store target role permission

def entriesOn (site : Site σ) (target : Object) : Except Failure (List Entry) := do
  site.requireRegistered target
  Store.entriesOn site.store target

end Entitlement.Site
