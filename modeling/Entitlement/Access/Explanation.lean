import Entitlement.Access.Restriction

/-!
# Explanation

How access of a user to one object is decided: by access everywhere, or by the condition on the
object and those of its objects on which the permission is granted.
-/

namespace Entitlement

structure Explanation where
  access : Option GlobalAccess
  condition : Condition
  /-- The objects of the condition on which the permission is granted to the user. -/
  grantedObjects : List Object
  granted : Bool

def Site.explain {σ : Type} [Store σ] (site : Site σ) (permission : Permission) (target : Object)
    (user : User) : Except Failure Explanation := do
  let roles ← site.rolesOf user
  let access := user.globalAccess? roles permission
  let condition ← site.condition target
  let grants ← site.grantedObjects roles permission
  return {
    access, condition
    grantedObjects := condition.objects.filter grants.contains
    granted := access.isSome ||
      (site.registry.applies target.model permission && condition.holds grants) }

end Entitlement
