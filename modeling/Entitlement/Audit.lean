import Entitlement.Entry

/-!
# The audit trail

Events that administration leaves behind, and the page of them that a query asks for.
-/

namespace Entitlement

/-- What an audited event is about. -/
inductive AuditAction where
  | entryCreated
  | entryEdited
  | entryDeleted
  | roleCreated
  | roleDeleted
  | roleEdited
  | membershipChanged
deriving DecidableEq

namespace AuditAction

def all : List AuditAction :=
  [.entryCreated, .entryEdited, .entryDeleted, .roleCreated, .roleDeleted, .roleEdited,
    .membershipChanged]

/-- The written form in the trail. -/
def toText : AuditAction → String
  | .entryCreated => "acls.acl_created"
  | .entryEdited => "acls.acl_edited"
  | .entryDeleted => "acls.acl_deleted"
  | .roleCreated => "permissions.role_created"
  | .roleDeleted => "permissions.role_deleted"
  | .roleEdited => "permissions.role_edited"
  | .membershipChanged => "user_management.group_membership_changed"

def parse (s : String) : Except Malformed AuditAction :=
  match all.find? (·.toText == s) with
  | some action => .ok action
  | none => .error (.unknownAction s)

theorem parse_toText (action : AuditAction) : parse action.toText = .ok action := by
  cases action <;> rfl

end AuditAction

/-- The identifier of what an event is about: that of an entry, or a text. -/
inductive ResourceId where
  | entry (id : EntryId)
  | text (s : String)
deriving DecidableEq

def ResourceId.toText : ResourceId → String
  | .entry id => id.toText
  | .text s => s

/-- An event as it is recorded. -/
structure AuditEvent where
  subject : String
  action : AuditAction
  resourceType : String
  resourceId : ResourceId
  detail : Option String
deriving DecidableEq

/-- An event as the trail shows it. -/
structure AuditEntry where
  subject : String
  action : String
  resourceType : String
  resourceId : ResourceId
  detail : Option String
deriving DecidableEq

def AuditEvent.toEntry (event : AuditEvent) : AuditEntry where
  subject := event.subject
  action := event.action.toText
  resourceType := event.resourceType
  resourceId := event.resourceId
  detail := event.detail

/-- Which part of the trail to show. -/
structure AuditQuery where
  limit : Nat := 50
  offset : Nat := 0
  action : Option AuditAction := none
  subject : Option String := none
deriving DecidableEq

namespace AuditQuery

/-- How many entries a page has: at least one, at most 200. -/
def pageSize (query : AuditQuery) : Nat := max 1 (min query.limit 200)

def admits (query : AuditQuery) (entry : AuditEntry) : Bool :=
  (query.action.all fun action => entry.action == action.toText) &&
    query.subject.all fun subject => entry.subject == subject

/-- The page of a trail, newest entry first, that begins after `skipped` entries. -/
def page (query : AuditQuery) (skipped : Nat) (trail : List AuditEntry) : List AuditEntry :=
  ((trail.filter query.admits).drop skipped).take query.pageSize

end AuditQuery

end Entitlement
