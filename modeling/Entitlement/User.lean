import Entitlement.Role

/-!
# Users

A user acts under a subject; subjects on the configured lists pass every check.
-/

namespace Entitlement

/-- Who acts. -/
structure User where
  subject : String
  displayName : String
  isSuperuser : Bool
  isStaff : Bool
deriving DecidableEq

/-- Why a user holds a permission on every object. -/
inductive GlobalAccess where
  | byRole
  | asSuperuser
  | asStaff
deriving DecidableEq

/-- The written form. -/
def GlobalAccess.toText : GlobalAccess → String
  | .byRole => "role_grant"
  | .asSuperuser => "superuser_override"
  | .asStaff => "staff_override"

/-- The subjects that pass every check. -/
structure Overrides where
  superusers : SortedSet String := ∅
  staff : SortedSet String := ∅
deriving DecidableEq

/-- The user behind a subject. -/
def Overrides.user (overrides : Overrides) (subject : String) : User where
  subject
  displayName := subject
  isSuperuser := overrides.superusers.contains subject
  isStaff := overrides.staff.contains subject

/-- The access that a user has without any role; superusers count before staff. -/
def User.override? (user : User) : Option GlobalAccess :=
  if user.isSuperuser then some .asSuperuser
  else if user.isStaff then some .asStaff
  else none

/-- Why the user with these roles holds the permission on every object, if so. -/
def User.globalAccess? (user : User) (roles : List Role) (permission : Permission) :
    Option GlobalAccess :=
  match user.override? with
  | some access => some access
  | none => if roles.any (·.holds permission) then some .byRole else none

end Entitlement
