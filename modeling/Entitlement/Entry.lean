import Entitlement.Model
import Entitlement.Role

/-!
# Entries

An entry lists the permissions that one role holds on one object.
-/

namespace Entitlement

/-- The identifier of an entry: numbered by the store that made it, or given from outside. -/
inductive EntryId where
  | numbered (n : Nat)
  | given (id : Uuid)
deriving DecidableEq

def EntryId.toText : EntryId → String
  | .numbered n => "acl-" ++ toString n
  | .given id => id.toText

/-- The permissions of a role on an object. -/
structure Entry where
  id : EntryId
  target : Object
  role : RoleId
  permissions : SortedSet Permission
deriving DecidableEq

namespace Entry

def lists (entry : Entry) (permission : Permission) : Bool := entry.permissions.contains permission

def add (entry : Entry) (permission : Permission) : Entry :=
  { entry with permissions := entry.permissions.insert permission }

def remove (entry : Entry) (permission : Permission) : Entry :=
  { entry with permissions := entry.permissions.erase permission }

end Entry

/-- What granting or revoking did to the stored entry. -/
inductive Effect where
  /-- There was no entry before. -/
  | created
  /-- The entry lists other permissions than before. -/
  | edited
  /-- The last permission went, and the entry with it. -/
  | deleted
  | unchanged
deriving DecidableEq

def Effect.toText : Effect → String
  | .created => "created"
  | .edited => "edited"
  | .deleted => "deleted"
  | .unchanged => "unchanged"

/-- The outcome of granting or revoking: its effect, and the entry as it stands afterwards (without
permissions if it was deleted), unless there was none. -/
structure Outcome where
  effect : Effect
  entry : Option Entry
deriving DecidableEq

end Entitlement
