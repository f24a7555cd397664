import Entitlement.Access.Restriction

/-!
# Inherited permissions

The permissions that a role has on an object without an entry on the object itself: those it holds
everywhere, and those that its entries on the other objects of the condition give it.
-/

namespace Entitlement.Site

variable {σ : Type} [Store σ]

/-- The entries of a role on some objects, each asked for once and none of those in `seen`. -/
def entriesAmong (site : Site σ) (role : RoleId) (seen : List Object) :
    List Object → Except Failure (List Entry)
  | [] => .ok []
  | object :: rest =>
    if object ∈ seen then site.entriesAmong role seen rest
    else do
      let entry ← Store.findEntry site.store object role
      let entries ← site.entriesAmong role (object :: seen) rest
      return entry.toList ++ entries

/-- The objects of the entries that list the permission. -/
def objectsListing (entries : List Entry) (permission : Permission) : SortedSet Object :=
  .ofList ((entries.filter (·.lists permission)).map (·.target))

/-- The permissions of the object's model that the role has on it by inheritance. -/
def inherited (site : Site σ) (target : Object) (id : RoleId) :
    Except Failure (SortedSet Permission) := do
  site.requireRegistered target
  let role ← site.role id
  let condition ← site.condition target
  let entries ← site.entriesAmong id [target] condition.objects
  return (site.registry.permissionsOf target.model).filter fun permission =>
    role.holds permission ||
      let grants := objectsListing entries permission
      ! grants.isEmpty && condition.holds grants

end Entitlement.Site
