import Entitlement.Reach
import Entitlement.Store

/-!
# The store in memory

Roles, members, entries and relations as maps, and the audit trail as a list. No request fails for
want of the store.
-/

namespace Entitlement

structure Memory where
  roles : SortedMap RoleId Role := ∅
  /-- The subjects of each group that has any. -/
  members : SortedMap String (SortedSet String) := ∅
  entries : SortedMap EntryKey Entry := ∅
  /-- The object that each relation that is set leads to. -/
  relations : SortedMap RelationKey Object := ∅
  /-- The audit trail, newest entry first. -/
  events : List AuditEntry := []
  /-- How many entries have ever been made. -/
  entriesMade : Nat := 0
deriving DecidableEq

namespace Memory

instance : EmptyCollection Memory := ⟨{}⟩
instance : Inhabited Memory := ⟨∅⟩

/-! ### Roles and members -/

/-- Stores a role whose label no stored one has. -/
def createRole (m : Memory) (role : Role) : Except Failure Memory :=
  if m.roles.values.any (·.label == role.label) then .error (.labelTaken role.label)
  else .ok { m with roles := m.roles.insert role.id role }

/-- Edits a stored role; a group to attach is stored under its normal name. -/
def editRole (m : Memory) (id : RoleId) (edit : RoleEdit) : Except Failure (Bool × Memory) :=
  match m.roles.get? id with
  | none => .error (.roleMissing id)
  | some role => do
    let edit ← refused edit.normal
    return (role.changedBy edit, { m with roles := m.roles.insert id (role.edit edit) })

/-- The entries of other roles. -/
def entriesWithout (m : Memory) (id : RoleId) : SortedMap EntryKey Entry :=
  m.entries.filter fun key _ => key.role ≠ id

def deleteRole (m : Memory) (id : RoleId) : Memory :=
  { m with roles := m.roles.erase id, entries := m.entriesWithout id }

def group (m : Memory) (name : String) : SortedSet String := (m.members.get? name).getD ∅

def addMember (m : Memory) (group subject : String) : Memory :=
  { m with members := m.members.insert group ((m.group group).insert subject) }

/-- Takes a subject from a group, and the group away with its last. -/
def removeMember (m : Memory) (group subject : String) : Memory :=
  let rest := (m.group group).erase subject
  { m with
    members := if rest.isEmpty then m.members.erase group else m.members.insert group rest }

def isHeldBy (m : Memory) (role : Role) (subject : String) : Bool :=
  role.groups.toList.any fun group => (m.group group).contains subject

def rolesOf (m : Memory) (subject : String) : List Role :=
  sortOn (·.label) (m.roles.values.filter (m.isHeldBy · subject))

/-! ### Entries -/

def addPermission (m : Memory) (target : Object) (role : RoleId) (permission : Permission) :
    Outcome × Memory :=
  match m.entries.get? ⟨target, role⟩ with
  | some entry =>
    let effect := if entry.lists permission then Effect.unchanged else .edited
    let entry := entry.add permission
    (⟨effect, some entry⟩, { m with entries := m.entries.insert ⟨target, role⟩ entry })
  | none =>
    let entry : Entry :=
      { id := .numbered (m.entriesMade + 1), target, role
        permissions := SortedSet.insert ∅ permission }
    (⟨.created, some entry⟩,
      { m with
        entries := m.entries.insert ⟨target, role⟩ entry
        entriesMade := m.entriesMade + 1 })

def removePermission (m : Memory) (target : Object) (role : RoleId) (permission : Permission) :
    Outcome × Memory :=
  match m.entries.get? ⟨target, role⟩ with
  | none => (⟨.unchanged, none⟩, m)
  | some entry =>
    if entry.lists permission then
      let entry := entry.remove permission
      if entry.permissions.isEmpty then
        (⟨.deleted, some entry⟩, { m with entries := m.entries.erase ⟨target, role⟩ })
      else
        (⟨.edited, some entry⟩, { m with entries := m.entries.insert ⟨target, role⟩ entry })
    else (⟨.unchanged, some entry⟩, m)

def deleteEntriesOf (m : Memory) (id : RoleId) : Nat × Memory :=
  ((m.entries.toList.filter (·.1.role == id)).length, { m with entries := m.entriesWithout id })

/-- The entries on an object, by role. -/
def entriesOn (m : Memory) (target : Object) : List Entry :=
  m.entries.values.filter (·.target == target)

def grantedObjects (m : Memory) (roles : List RoleId) (permission : Permission) :
    SortedSet Object :=
  .ofList ((m.entries.values.filter fun entry =>
    roles.contains entry.role && entry.lists permission).map (·.target))

/-! ### Relations -/

/-- The stored relations without their names. -/
def links (m : Memory) : List (Object × Object) :=
  m.relations.toList.map fun entry => (entry.1.child, entry.2)

/-- Sets a relation unless its object is the parent or to be had from it over stored relations. -/
def setRelation (m : Memory) (child : Object) (relation : String) (parent : Object) :
    Except Failure Memory :=
  if reaches m.links parent child then .error (.ownAncestor relation child)
  else .ok { m with relations := m.relations.insert ⟨child, relation⟩ parent }

def clearRelation (m : Memory) (child : Object) (relation : String) : Memory :=
  { m with relations := m.relations.erase ⟨child, relation⟩ }

/-! ### The audit trail -/

def record (m : Memory) (event : AuditEvent) : Memory :=
  { m with events := event.toEntry :: m.events }

def trail (m : Memory) (query : AuditQuery) : List AuditEntry := query.page query.offset m.events

instance : Store Memory where
  createRole := createRole
  findRole m id := .ok (m.roles.get? id)
  listRoles m := .ok (sortOn (·.label) m.roles.values)
  editRole := editRole
  deleteRole m id := .ok (m.deleteRole id)
  addMember m group subject := .ok (m.addMember group subject)
  removeMember m group subject := .ok (m.removeMember group subject)
  membersOf m group := .ok (m.group group).toList
  rolesOf m subject := .ok (m.rolesOf subject)
  findEntry m target role := .ok (m.entries.get? ⟨target, role⟩)
  addPermission m target role permission := .ok (m.addPermission target role permission)
  removePermission m target role permission := .ok (m.removePermission target role permission)
  deleteEntriesOf m id := .ok (m.deleteEntriesOf id)
  entriesOn m target := .ok (m.entriesOn target)
  grantedObjects m roles permission := .ok (m.grantedObjects roles permission)
  related m object relation := .ok (m.relations.get? ⟨object, relation⟩)
  setRelation := setRelation
  clearRelation m child relation := .ok (m.clearRelation child relation)
  record m event := .ok (m.record event)
  trail m query := .ok (m.trail query)

end Memory

end Entitlement
