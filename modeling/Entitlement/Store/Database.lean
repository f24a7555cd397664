import Entitlement.Reach
import Entitlement.Store
import Entitlement.Store.Decode

/-!
# The relational store

The same requests answered from eight tables of rows. A request is a run of statements in one
transaction: if a statement fails, nothing of the run remains. A statement fails when a table that it
names is not in place, and else when a text that it sends has U+0000 in it; keys that refer to other
tables are looked after whether or not those are in place. What is stored is read back as text.
-/

namespace Entitlement

/-! ### Rows -/

structure RoleRow where
  id : RoleId
  label : String
deriving DecidableEq

structure RolePermissionRow where
  role : RoleId
  permission : String
deriving DecidableEq

structure RoleGroupRow where
  role : RoleId
  group : String
deriving DecidableEq

structure MemberRow where
  group : String
  subject : String
deriving DecidableEq

structure EntryRow where
  number : Nat
  model : String
  key : String
  role : RoleId
deriving DecidableEq

structure EntryPermissionRow where
  entry : Nat
  permission : String
deriving DecidableEq

structure RelationRow where
  model : String
  key : String
  relation : String
  relatedModel : String
  relatedKey : String
deriving DecidableEq

def EntryRow.isOn (row : EntryRow) (target : Object) : Bool :=
  row.model == target.model.toText && row.key == target.key

def RelationRow.isOf (row : RelationRow) (object : Object) (relation : String) : Bool :=
  row.model == object.model.toText && row.key == object.key && row.relation == relation

/-- The rows of the eight tables, in the order in which they were made except for the audit trail,
which has the newest first. -/
structure Database where
  roles : List RoleRow := []
  rolePermissions : List RolePermissionRow := []
  roleGroups : List RoleGroupRow := []
  members : List MemberRow := []
  entries : List EntryRow := []
  entryPermissions : List EntryPermissionRow := []
  relations : List RelationRow := []
  events : List AuditEntry := []
  /-- How many entries have ever been made. -/
  entriesMade : Nat := 0
  /-- The tables that are not in place; their rows are kept. -/
  away : List Table := []
deriving DecidableEq

namespace Database

instance : EmptyCollection Database := ⟨{}⟩
instance : Inhabited Database := ⟨∅⟩

def hasNul (s : String) : Bool := s.toList.contains '\x00'

/-- Sends a statement that names these tables, in their order, and has these texts in it. -/
def send (db : Database) (task : StorageTask) (tables : List Table) (texts : List String) :
    Except Failure Unit :=
  match tables.find? (db.away.contains ·) with
  | some table => .error (.storage task (.missingTable table))
  | none => if texts.any hasNul then .error (.storage task .nulText) else .ok ()

/-! ### Roles -/

/-- Reads a role: its permissions first, then its label. -/
def readRole (db : Database) (row : RoleRow) : Except Failure Role := do
  let permissions := (db.rolePermissions.filter (·.role == row.id)).map (·.permission)
  let groups := (db.roleGroups.filter (·.role == row.id)).map (·.group)
  let permissions ← decodePermissions (SortedSet.ofList permissions).toList
  (Role.of? row.id row.label permissions (.ofList groups)).mapError (.undecodableRole row.id)

/-- The tables that reading roles names. -/
def roleTables : List Table := [.roles, .rolePermissions, .roleGroups]

/-- Stores a role with its permissions and groups, unless its label or identifier is taken. -/
def createRole (db : Database) (role : Role) : Except Failure Database := do
  let permissions := role.permissions.toList.map Permission.toText
  let groups := role.groups.toList
  db.send (.persistRole role.label) [.roles] [role.label]
  if db.roles.any fun row => row.id == role.id || row.label == role.label then
    .error (.labelTaken role.label)
  db.send (.persistPermissions role.id) [.rolePermissions] permissions
  db.send (.persistGroups role.id) [.roleGroups] groups
  return { db with
    roles := db.roles ++ [⟨role.id, role.label⟩]
    rolePermissions := db.rolePermissions ++ permissions.map (⟨role.id, ·⟩)
    roleGroups := db.roleGroups ++ groups.map (⟨role.id, ·⟩) }

def findRole (db : Database) (id : RoleId) : Except Failure (Option Role) := do
  db.send (.findRole id) roleTables []
  match db.roles.find? (·.id == id) with
  | some row => some <$> db.readRole row
  | none => return none

def listRoles (db : Database) : Except Failure (List Role) := do
  db.send .listRoles roleTables []
  (sortOn (·.label) db.roles).mapM db.readRole

def hasRole (db : Database) (id : RoleId) : Bool := db.roles.any (·.id == id)

/-- Asks for a role that has to be stored. -/
def requireRole (db : Database) (id : RoleId) : Except Failure Unit := do
  db.send (.findRole id) [.roles] []
  if ! db.hasRole id then .error (.roleMissing id)

/-- The end of an edit: one that changed nothing asks whether there is such a role at all. -/
def edited (db : Database) (id : RoleId) (changed : Bool) (new : Database) :
    Except Failure (Bool × Database) :=
  if changed then .ok (true, new)
  else do
    db.requireRole id
    return (false, db)

/-- Adds or deletes one row of a role. -/
def editRole (db : Database) (id : RoleId) : RoleEdit → Except Failure (Bool × Database)
  | .grant permission => do
    let row : RolePermissionRow := ⟨id, permission.toText⟩
    db.send (.editRole id) [.rolePermissions, .roles] [row.permission]
    db.edited id (db.hasRole id && ! db.rolePermissions.contains row)
      { db with rolePermissions := db.rolePermissions ++ [row] }
  | .revoke permission => do
    let row : RolePermissionRow := ⟨id, permission.toText⟩
    db.send (.editRole id) [.rolePermissions] [row.permission]
    db.edited id (db.rolePermissions.contains row)
      { db with rolePermissions := db.rolePermissions.filter (· ≠ row) }
  | .attach group => do
    let row : RoleGroupRow := ⟨id, group⟩
    db.send (.editRole id) [.roleGroups, .roles] [group]
    db.edited id (db.hasRole id && ! db.roleGroups.contains row)
      { db with roleGroups := db.roleGroups ++ [row] }
  | .detach group => do
    let row : RoleGroupRow := ⟨id, group⟩
    db.send (.editRole id) [.roleGroups] [group]
    db.edited id (db.roleGroups.contains row)
      { db with roleGroups := db.roleGroups.filter (· ≠ row) }

/-- Keeps some entries and the permissions listed in them. -/
def keepEntries (db : Database) (keep : EntryRow → Bool) : Database :=
  let gone := (db.entries.filter (! keep ·)).map (·.number)
  { db with
    entries := db.entries.filter keep
    entryPermissions := db.entryPermissions.filter fun row => ! gone.contains row.entry }

/-- Deletes a role with all rows that refer to it. -/
def deleteRole (db : Database) (id : RoleId) : Except Failure Database := do
  db.send (.deleteRole id) [.roles] []
  if db.hasRole id then
    let kept := db.keepEntries (·.role ≠ id)
    return { kept with
      roles := kept.roles.filter (·.id ≠ id)
      rolePermissions := kept.rolePermissions.filter (·.role ≠ id)
      roleGroups := kept.roleGroups.filter (·.role ≠ id) }
  else return db

/-! ### Members -/

def addMember (db : Database) (group subject : String) : Except Failure Database := do
  db.send (.addMember subject group) [.members] [group, subject]
  let row : MemberRow := ⟨group, subject⟩
  return if db.members.contains row then db else { db with members := db.members ++ [row] }

def removeMember (db : Database) (group subject : String) : Except Failure Database := do
  db.send (.removeMember subject group) [.members] [group, subject]
  return { db with members := db.members.filter (· ≠ ⟨group, subject⟩) }

def membersOf (db : Database) (group : String) : Except Failure (List String) := do
  db.send (.listMembers group) [.members] [group]
  return sortOn id ((db.members.filter (·.group == group)).map (·.subject))

def isHeldBy (db : Database) (role : RoleRow) (subject : String) : Bool :=
  db.roleGroups.any fun row =>
    row.role == role.id && db.members.contains ⟨row.group, subject⟩

def rolesOf (db : Database) (subject : String) : Except Failure (List Role) := do
  db.send (.listRolesOf subject) (roleTables ++ [.roleGroups, .members]) [subject]
  (sortOn (·.label) (db.roles.filter (db.isHeldBy · subject))).mapM db.readRole

/-! ### Entries -/

/-- Reads an entry: its object first, then its permissions. -/
def readEntry (db : Database) (row : EntryRow) : Except Failure Entry := do
  let permissions := (db.entryPermissions.filter (·.entry == row.number)).map (·.permission)
  let target ← decodeObject row.model row.key
  let permissions ← decodePermissions (SortedSet.ofList permissions).toList
  return { id := .numbered row.number, target, role := row.role, permissions }

/-- The tables that reading entries names. -/
def entryTables : List Table := [.entries, .entryPermissions]

/-- The row of the entry of a role on an object. -/
def entryRow? (db : Database) (target : Object) (role : RoleId) : Option EntryRow :=
  db.entries.find? fun row => row.isOn target && row.role == role

def findEntry (db : Database) (target : Object) (role : RoleId) :
    Except Failure (Option Entry) := do
  db.send (.findEntry target) entryTables [target.model.toText, target.key]
  match db.entryRow? target role with
  | some row => some <$> db.readEntry row
  | none => return none

/-- The row of an entry that has to be there, made if need be: whether it was made, and the row. -/
def saveEntry (db : Database) (target : Object) (role : RoleId) :
    Except Failure (Bool × EntryRow × Database) := do
  db.send (.saveEntry target) [.entries] [target.model.toText, target.key]
  match db.entryRow? target role with
  | some row => return (false, row, db)
  | none =>
    if ! db.hasRole role then .error (.storage (.saveEntry target) .noSuchRole)
    let row : EntryRow := ⟨db.entriesMade + 1, target.model.toText, target.key, role⟩
    return (true, row,
      { db with entries := db.entries ++ [row], entriesMade := db.entriesMade + 1 })

def addPermission (db : Database) (target : Object) (role : RoleId) (permission : Permission) :
    Except Failure (Outcome × Database) := do
  let (created, row, db) ← db.saveEntry target role
  let listed : EntryPermissionRow := ⟨row.number, permission.toText⟩
  db.send (.addPermission permission (.numbered row.number)) [.entryPermissions]
    [listed.permission]
  let known := db.entryPermissions.contains listed
  let db := if known then db else { db with entryPermissions := db.entryPermissions ++ [listed] }
  db.send (.readEntry (.numbered row.number)) entryTables []
  let entry ← db.readEntry row
  let effect := if created then Effect.created else if known then .unchanged else .edited
  return (⟨effect, some entry⟩, db)

def removePermission (db : Database) (target : Object) (role : RoleId) (permission : Permission) :
    Except Failure (Outcome × Database) := do
  db.send (.lockEntry target) [.entries] [target.model.toText, target.key]
  match db.entryRow? target role with
  | none => return (⟨.unchanged, none⟩, db)
  | some row =>
    let listed : EntryPermissionRow := ⟨row.number, permission.toText⟩
    db.send (.removePermission permission (.numbered row.number)) [.entryPermissions]
      [listed.permission]
    let known := db.entryPermissions.contains listed
    let db := { db with entryPermissions := db.entryPermissions.filter (· ≠ listed) }
    db.send (.readEntry (.numbered row.number)) entryTables []
    let entry ← db.readEntry row
    if ! known then return (⟨.unchanged, some entry⟩, db)
    else if entry.permissions.isEmpty then
      db.send (.deleteEntry (.numbered row.number)) entryTables []
      return (⟨.deleted, some entry⟩, db.keepEntries (·.number ≠ row.number))
    else return (⟨.edited, some entry⟩, db)

def deleteEntriesOf (db : Database) (id : RoleId) : Except Failure (Nat × Database) := do
  db.send (.deleteEntriesOf id) [.entries] []
  return ((db.entries.filter (·.role == id)).length, db.keepEntries (·.role ≠ id))

/-- The entries on an object, in the order in which they were made. -/
def entriesOn (db : Database) (target : Object) : Except Failure (List Entry) := do
  db.send (.listEntries target) entryTables [target.model.toText, target.key]
  (db.entries.filter (·.isOn target)).mapM db.readEntry

/-- The objects of the entries that list the permission, read in the order of their stored texts. -/
def grantedObjects (db : Database) (roles : List RoleId) (permission : Permission) :
    Except Failure (SortedSet Object) := do
  db.send (.listGranted permission) entryTables [permission.toText]
  let rows := db.entries.filter fun row =>
    roles.contains row.role && db.entryPermissions.contains ⟨row.number, permission.toText⟩
  let rows := sortOn (fun row => [row.model, row.key]) rows
  return .ofList (← rows.mapM fun row => decodeObject row.model row.key)

/-! ### Relations -/

def related (db : Database) (object : Object) (relation : String) :
    Except Failure (Option Object) := do
  db.send (.followRelation relation object) [.relations]
    [object.model.toText, object.key, relation]
  match db.relations.find? (·.isOf object relation) with
  | some row => some <$> decodeObject row.relatedModel row.relatedKey
  | none => return none

/-- The stored relations without their names, between objects as they are stored. -/
def links (db : Database) : List ((String × String) × (String × String)) :=
  db.relations.map fun row => ((row.model, row.key), (row.relatedModel, row.relatedKey))

/-- Sets a relation unless its object is the parent or to be had from it over stored relations. -/
def setRelation (db : Database) (child : Object) (relation : String) (parent : Object) :
    Except Failure Database := do
  let row : RelationRow :=
    ⟨child.model.toText, child.key, relation, parent.model.toText, parent.key⟩
  db.send (.walkAncestors parent) [.relations]
    [row.model, row.key, row.relatedModel, row.relatedKey]
  if reaches db.links (row.relatedModel, row.relatedKey) (row.model, row.key) then
    .error (.ownAncestor relation child)
  db.send (.setRelation relation child) [.relations]
    [row.model, row.key, row.relation, row.relatedModel, row.relatedKey]
  return { db with relations := db.relations.filter (! ·.isOf child relation) ++ [row] }

def clearRelation (db : Database) (child : Object) (relation : String) :
    Except Failure Database := do
  db.send (.clearRelation relation child) [.relations] [child.model.toText, child.key, relation]
  return { db with relations := db.relations.filter (! ·.isOf child relation) }

/-! ### The audit trail -/

def record (db : Database) (event : AuditEvent) : Except Failure Database := do
  db.send .appendAudit [.auditTrail]
    ([event.subject, event.action.toText, event.resourceType, event.resourceId.toText] ++
      event.detail.toList)
  return { db with events := event.toEntry :: db.events }

/-- The furthest that a page of the trail can begin from its newest entry. -/
def maxOffset : Nat := 5000

def trail (db : Database) (query : AuditQuery) : Except Failure (List AuditEntry) := do
  db.send .listAudit [.auditTrail] query.subject.toList
  return query.page (min query.offset maxOffset) db.events

instance : Store Database where
  createRole := createRole
  findRole := findRole
  listRoles := listRoles
  editRole := editRole
  deleteRole := deleteRole
  addMember := addMember
  removeMember := removeMember
  membersOf := membersOf
  rolesOf := rolesOf
  findEntry := findEntry
  addPermission := addPermission
  removePermission := removePermission
  deleteEntriesOf := deleteEntriesOf
  entriesOn := entriesOn
  grantedObjects := grantedObjects
  related := related
  setRelation := setRelation
  clearRelation := clearRelation
  record := record
  trail := trail

end Database

end Entitlement
