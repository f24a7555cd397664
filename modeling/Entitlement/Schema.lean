/-!
# The tables of the relational store

Their names and columns. `columns` lists the columns as the database does: by table name, then in
the order in which the table declares them.
-/

namespace Entitlement

inductive Table where
  | entryPermissions
  | entries
  | auditTrail
  | members
  | relations
  | roleGroups
  | rolePermissions
  | roles
deriving DecidableEq

inductive ColumnType where
  | uuid
  | text
  | timestamp
deriving DecidableEq

def ColumnType.toText : ColumnType → String
  | .uuid => "uuid"
  | .text => "text"
  | .timestamp => "timestamp with time zone"

structure Column where
  name : String
  type : ColumnType
  nullable : Bool := false
deriving DecidableEq

namespace Table

def all : List Table :=
  [.entryPermissions, .entries, .auditTrail, .members, .relations, .roleGroups, .rolePermissions,
    .roles]

def toText : Table → String
  | .entryPermissions => "access_control_list_permissions"
  | .entries => "access_control_lists"
  | .auditTrail => "audit_log_entries"
  | .members => "group_members"
  | .relations => "object_relations"
  | .roleGroups => "role_groups"
  | .rolePermissions => "role_permissions"
  | .roles => "roles"

def ofText? (s : String) : Option Table := all.find? (·.toText == s)

/-- The columns in the order of their declaration. -/
def columns : Table → List Column
  | .entryPermissions => [⟨"acl_id", .uuid, false⟩, ⟨"permission", .text, false⟩]
  | .entries =>
    [⟨"id", .uuid, false⟩, ⟨"content_type", .text, false⟩, ⟨"object_id", .text, false⟩,
      ⟨"role_id", .uuid, false⟩, ⟨"created_at", .timestamp, false⟩]
  | .auditTrail =>
    [⟨"id", .uuid, false⟩, ⟨"subject", .text, false⟩, ⟨"action", .text, false⟩,
      ⟨"resource_type", .text, false⟩, ⟨"resource_id", .text, false⟩, ⟨"detail", .text, true⟩,
      ⟨"created_at", .timestamp, false⟩]
  | .members =>
    [⟨"group_name", .text, false⟩, ⟨"subject", .text, false⟩, ⟨"added_at", .timestamp, false⟩]
  | .relations =>
    [⟨"content_type", .text, false⟩, ⟨"object_id", .text, false⟩, ⟨"relation", .text, false⟩,
      ⟨"related_content_type", .text, false⟩, ⟨"related_object_id", .text, false⟩,
      ⟨"updated_at", .timestamp, false⟩]
  | .roleGroups => [⟨"role_id", .uuid, false⟩, ⟨"group_name", .text, false⟩]
  | .rolePermissions => [⟨"role_id", .uuid, false⟩, ⟨"permission", .text, false⟩]
  | .roles => [⟨"id", .uuid, false⟩, ⟨"label", .text, false⟩, ⟨"created_at", .timestamp, false⟩]

end Table

/-- A step that brought the database to its present tables. -/
structure Migration where
  version : Nat
  description : String
  success : Bool
deriving DecidableEq

/-- The steps in the order in which they ran. -/
def migrations : List Migration := [⟨20260301000000, "access control", true⟩]

end Entitlement
