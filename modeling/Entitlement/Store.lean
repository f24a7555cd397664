import Entitlement.Audit
import Entitlement.Failure

/-!
# Stores

What a store of roles, group members, entries, relations and audit events can be asked to do. A
request that fails leaves the store as it was; one that only reads has no store in its answer.
-/

namespace Entitlement

/-- What an entry is stored under. -/
structure EntryKey where
  target : Object
  role : RoleId
deriving DecidableEq

namespace EntryKey

instance : Ord EntryKey := ⟨compareLex (compareOn (·.target)) (compareOn (·.role))⟩
instance : Std.TransOrd EntryKey := inferInstanceAs
  (Std.TransCmp (compareLex (compareOn fun k : EntryKey => k.target) (compareOn (·.role))))
instance : Std.LawfulEqOrd EntryKey := lawful_lex fun a b target role => by
  cases a; cases b; cases target; cases role; rfl

end EntryKey

/-- What a relation is stored under. -/
structure RelationKey where
  child : Object
  relation : String
deriving DecidableEq

namespace RelationKey

instance : Ord RelationKey := ⟨compareLex (compareOn (·.child)) (compareOn (·.relation))⟩
instance : Std.TransOrd RelationKey := inferInstanceAs
  (Std.TransCmp (compareLex (compareOn fun k : RelationKey => k.child) (compareOn (·.relation))))
instance : Std.LawfulEqOrd RelationKey := lawful_lex fun a b child relation => by
  cases a; cases b; cases child; cases relation; rfl

end RelationKey

/-- The requests that a store answers. -/
class Store (σ : Type) where
  /-- Stores a new role. -/
  createRole : σ → Role → Except Failure σ
  findRole : σ → RoleId → Except Failure (Option Role)
  /-- Every role, by label. -/
  listRoles : σ → Except Failure (List Role)
  /-- Edits a stored role, and says whether that changed it. -/
  editRole : σ → RoleId → RoleEdit → Except Failure (Bool × σ)
  /-- Deletes a role and its entries; one that is not stored is none to delete. -/
  deleteRole : σ → RoleId → Except Failure σ
  addMember : σ → (group subject : String) → Except Failure σ
  removeMember : σ → (group subject : String) → Except Failure σ
  /-- The subjects of a group in ascending order. -/
  membersOf : σ → (group : String) → Except Failure (List String)
  /-- The roles that a subject has through its groups, by label. -/
  rolesOf : σ → (subject : String) → Except Failure (List Role)
  findEntry : σ → Object → RoleId → Except Failure (Option Entry)
  /-- Adds a permission to the entry of a role on an object, which it makes if need be. -/
  addPermission : σ → Object → RoleId → Permission → Except Failure (Outcome × σ)
  /-- Takes a permission from the entry of a role on an object, and the entry away with its last. -/
  removePermission : σ → Object → RoleId → Permission → Except Failure (Outcome × σ)
  /-- Deletes the entries of a role, and counts them. -/
  deleteEntriesOf : σ → RoleId → Except Failure (Nat × σ)
  entriesOn : σ → Object → Except Failure (List Entry)
  /-- The objects on which an entry of one of the roles lists the permission. -/
  grantedObjects : σ → List RoleId → Permission → Except Failure (SortedSet Object)
  /-- The object that a relation of an object leads to, if it is set. -/
  related : σ → Object → (relation : String) → Except Failure (Option Object)
  /-- Lets a relation of `child` lead to `parent`, unless `child` is already to be had from there. -/
  setRelation : σ → (child : Object) → (relation : String) → (parent : Object) → Except Failure σ
  clearRelation : σ → (child : Object) → (relation : String) → Except Failure σ
  record : σ → AuditEvent → Except Failure σ
  /-- A page of the audit trail, newest entry first. -/
  trail : σ → AuditQuery → Except Failure (List AuditEntry)

end Entitlement
