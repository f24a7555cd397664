import Entitlement.Access.Everywhere

/-!
# Restriction

Which of some candidates a user may access: all of them if the user holds the permission everywhere,
and else those whose condition holds for the objects on which a role of the user has an entry that
lists the permission. `check` asks the same of one object, and `Denial` is what callers make of a
refusal.
-/

namespace Entitlement

/-- How a refusal is presented. -/
inductive Denial where
  /-- As if there were no such object. -/
  | hidden
  | forbidden
deriving DecidableEq

/-- The failure that presents the refusal of a permission on an object. -/
def Denial.failure (permission : Permission) (target : Object) : Denial → Failure
  | .hidden => .objectHidden target
  | .forbidden => .objectForbidden permission target

namespace Site

variable {σ α : Type} [Store σ]

/-- The objects on which an entry of one of the roles lists the permission. -/
def grantedObjects (site : Site σ) (roles : List Role) (permission : Permission) :
    Except Failure (SortedSet Object) :=
  if roles.isEmpty then .ok ∅
  else Store.grantedObjects site.store (roles.map (·.id)) permission

/-- Whether grants of the permission on these objects give access to an object. -/
def admits (site : Site σ) (permission : Permission) (grants : SortedSet Object) (object : Object) :
    Except Failure Bool := do
  site.requireRegistered object
  if grants.isEmpty || ! site.registry.applies object.model permission then return false
  return (← site.condition object).holds grants

/-- The candidates that pass a test, in their order; the first failure of the test decides. -/
def keepPassing (test : α → Except Failure Bool) : List α → Except Failure (List α)
  | [] => .ok []
  | candidate :: rest => do
    let passes ← test candidate
    let kept ← keepPassing test rest
    return if passes then candidate :: kept else kept

/-- The candidates whose objects the user may access, in their order. -/
def restrict (site : Site σ) (permission : Permission) (object : α → Object)
    (candidates : List α) (user : User) : Except Failure (List α) := do
  let roles ← site.rolesOf user
  match user.globalAccess? roles permission with
  | some _ => return candidates
  | none =>
    let grants ← site.grantedObjects roles permission
    keepPassing (fun candidate => site.admits permission grants (object candidate)) candidates

def check (site : Site σ) (permission : Permission) (target : Object) (user : User) :
    Except Failure Bool :=
  (site.restrict permission id [target] user).map (! ·.isEmpty)

/-- Fails unless the user may access the object. -/
def require (site : Site σ) (permission : Permission) (target : Object) (user : User)
    (denial : Denial) : Except Failure Unit := do
  if ! (← site.check permission target user) then .error (denial.failure permission target)

end Site

end Entitlement
