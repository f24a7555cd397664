import Entitlement.Store.Database

/-!
# Changes behind the store's back

A table can be taken away and put back, and a value replaced wherever a column has it. The requests
of the store then meet what they would not have written themselves.
-/

namespace Entitlement.Database

/-- Takes a table away; its rows are kept. -/
def takeAway (db : Database) (table : Table) : Database := { db with away := table :: db.away }

/-- Puts a table back with its rows. -/
def putBack (db : Database) (table : Table) : Database :=
  { db with away := db.away.filter (· ≠ table) }

/-- The digits of an identifier without the hyphen that may follow every fourth of them but the
last. -/
def digitsOfFours : List Char → Option (List Char)
  | [a, b, c, d] => some [a, b, c, d]
  | a :: b :: c :: d :: '-' :: rest => (digitsOfFours rest).map ([a, b, c, d] ++ ·)
  | a :: b :: c :: d :: rest => (digitsOfFours rest).map ([a, b, c, d] ++ ·)
  | _ => none

/-- Reads an identifier as the database does: in braces or not, and with any hyphens after fours of
digits. -/
def readIdentifier? (s : String) : Option Uuid := do
  let cs ← match s.toList with
    | '{' :: rest => if rest.getLast? = some '}' then some rest.dropLast else none
    | cs => some cs
  Uuid.ofDigits? (← digitsOfFours cs)

/-- Replaces `old` by `new` wherever the column of the table has it. The identifiers of entries,
in the audit trail too, and those of audit entries stay as they are. -/
def replace (db : Database) (table : Table) (column old new : String) : Database :=
  let swap := fun text => if text = old then new else text
  let swapId := fun id => if readIdentifier? old = some id then (readIdentifier? new).getD id else id
  let swapResource : ResourceId → ResourceId
    | .text s => .text (swap s)
    | .entry id => .entry id
  match table, column with
  | .roles, "id" => { db with roles := db.roles.map fun row => { row with id := swapId row.id } }
  | .rolePermissions, "role_id" =>
    { db with
      rolePermissions := db.rolePermissions.map fun row => { row with role := swapId row.role } }
  | .roleGroups, "role_id" =>
    { db with roleGroups := db.roleGroups.map fun row => { row with role := swapId row.role } }
  | .entries, "role_id" =>
    { db with entries := db.entries.map fun row => { row with role := swapId row.role } }
  | .roles, "label" =>
    { db with roles := db.roles.map fun row => { row with label := swap row.label } }
  | .rolePermissions, "permission" =>
    { db with
      rolePermissions := db.rolePermissions.map fun row =>
        { row with permission := swap row.permission } }
  | .roleGroups, "group_name" =>
    { db with roleGroups := db.roleGroups.map fun row => { row with group := swap row.group } }
  | .members, "group_name" =>
    { db with members := db.members.map fun row => { row with group := swap row.group } }
  | .members, "subject" =>
    { db with members := db.members.map fun row => { row with subject := swap row.subject } }
  | .entries, "content_type" =>
    { db with entries := db.entries.map fun row => { row with model := swap row.model } }
  | .entries, "object_id" =>
    { db with entries := db.entries.map fun row => { row with key := swap row.key } }
  | .entryPermissions, "permission" =>
    { db with
      entryPermissions := db.entryPermissions.map fun row =>
        { row with permission := swap row.permission } }
  | .relations, "content_type" =>
    { db with relations := db.relations.map fun row => { row with model := swap row.model } }
  | .relations, "object_id" =>
    { db with relations := db.relations.map fun row => { row with key := swap row.key } }
  | .relations, "relation" =>
    { db with relations := db.relations.map fun row => { row with relation := swap row.relation } }
  | .relations, "related_content_type" =>
    { db with
      relations := db.relations.map fun row =>
        { row with relatedModel := swap row.relatedModel } }
  | .relations, "related_object_id" =>
    { db with
      relations := db.relations.map fun row => { row with relatedKey := swap row.relatedKey } }
  | .auditTrail, "subject" =>
    { db with events := db.events.map fun row => { row with subject := swap row.subject } }
  | .auditTrail, "action" =>
    { db with events := db.events.map fun row => { row with action := swap row.action } }
  | .auditTrail, "resource_type" =>
    { db with
      events := db.events.map fun row => { row with resourceType := swap row.resourceType } }
  | .auditTrail, "resource_id" =>
    { db with
      events := db.events.map fun row => { row with resourceId := swapResource row.resourceId } }
  | .auditTrail, "detail" =>
    { db with events := db.events.map fun row => { row with detail := row.detail.map swap } }
  | _, _ => db

end Entitlement.Database
