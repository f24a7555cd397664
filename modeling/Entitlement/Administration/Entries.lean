import Entitlement.Access.Grant
import Entitlement.Access.Inherited

/-!
# Administration of entries

Seeing, granting and revoking on behalf of a user who may do so on the object, with an audit event
for each change.
-/

namespace Entitlement.Site

variable {σ : Type} [Store σ]

def record (event : AuditEvent) : Attempt (Site σ) Unit := put fun store => Store.record store event

/-- The audited action of an effect, if it is one. -/
def auditedEffect : Effect → Option AuditAction
  | .created => some .entryCreated
  | .edited => some .entryEdited
  | .deleted => some .entryDeleted
  | .unchanged => none

/-- The event of what became of an entry, and how, unless nothing did. -/
def outcomeEvent? (actor : User) (outcome : Outcome) (detail : String) : Option AuditEvent :=
  match auditedEffect outcome.effect, outcome.entry with
  | some action, some entry =>
    some {
      subject := actor.subject, action
      resourceType := "access_control_list"
      resourceId := .entry entry.id
      detail := some (detail ++ " on '" ++ entry.target.toText ++ "'") }
  | _, _ => none

/-- Records what became of an entry, and how, unless nothing did. -/
def recordOutcome (actor : User) (outcome : Outcome) (detail : String) : Attempt (Site σ) Unit :=
  match outcomeEvent? actor outcome detail with
  | some event => record event
  | none => pure ()

/-- The entries on an object, for a user who may see them. -/
def viewEntries (site : Site σ) (actor : User) (target : Object) : Except Failure (List Entry) := do
  site.require Entitlement.viewEntries target actor .forbidden
  site.entriesOn target

/-- What a role has on an object by inheritance, for a user who may see its entries. -/
def viewInherited (site : Site σ) (actor : User) (target : Object) (role : RoleId) :
    Except Failure (SortedSet Permission) := do
  site.require Entitlement.viewEntries target actor .forbidden
  site.inherited target role

/-- Grants a permission on an object to a role, for a user who may edit its entries. -/
def grantFor (actor : User) (target : Object) (permission : Permission) (role : RoleId) :
    Attempt (Site σ) Outcome := do
  Attempt.look fun site => site.require editEntries target actor .forbidden
  let outcome ← grant target permission role
  recordOutcome actor outcome
    ("granted '" ++ permission.toText ++ "' to role '" ++ role.toText ++ "'")
  return outcome

/-- Revokes a permission on an object from a role, for a user who may edit its entries. -/
def revokeFor (actor : User) (target : Object) (permission : Permission) (role : RoleId) :
    Attempt (Site σ) Outcome := do
  Attempt.look fun site => site.require editEntries target actor .forbidden
  let outcome ← revoke target permission role
  recordOutcome actor outcome
    ("revoked '" ++ permission.toText ++ "' from role '" ++ role.toText ++ "'")
  return outcome

end Entitlement.Site
