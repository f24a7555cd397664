import Entitlement.Site

/-!
# Access everywhere

What a user may do on every object: whatever the overrides say, and else what the roles of the
user's groups grant.
-/

namespace Entitlement.Site

variable {σ : Type} [Store σ]

/-- The roles that the user has through groups. -/
def rolesOf (site : Site σ) (user : User) : Except Failure (List Role) :=
  Store.rolesOf site.store user.subject

/-- Why the user holds the permission on every object, if so. -/
def globalAccess? (site : Site σ) (user : User) (permission : Permission) :
    Except Failure (Option GlobalAccess) :=
  match user.override? with
  | some access => .ok (some access)
  | none => (site.rolesOf user).map (user.globalAccess? · permission)

/-- Why the user holds the first of the permissions that the user does hold on every object. -/
def requireAny (site : Site σ) (user : User) (permissions : List Permission) :
    Except Failure GlobalAccess :=
  match user.override? with
  | some access => .ok access
  | none => do
    let roles ← site.rolesOf user
    match permissions.findSome? (user.globalAccess? roles ·) with
    | some access => return access
    | none => .error (.permissionsMissing user.subject permissions)

/-- Fails unless the user holds the permission on every object. -/
def requireEverywhere (site : Site σ) (user : User) (permission : Permission) :
    Except Failure Unit :=
  (site.requireAny user [permission]).map fun _ => ()

def holdsEverywhere (site : Site σ) (user : User) (permission : Permission) :
    Except Failure Bool :=
  (site.globalAccess? user permission).map (·.isSome)

end Entitlement.Site
