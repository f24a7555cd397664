import Entitlement.Audit
import Entitlement.Entry
import Entitlement.Json
import Entitlement.Path
import Entitlement.User

/-!
# Records

The values of the library as JSON records and back. A record is read from an object, whose members
are looked at in the order in which they stand, or from an array of its fields. Reading checks
permissions, models and paths, and that no field is given twice, and nothing else: names, labels and
keys are taken as they are.
-/

namespace Entitlement.Record

/-- Why a value is not read. -/
inductive Fault where
  /-- It has another shape. -/
  | misfit
  /-- A text in it is refused. -/
  | refused (cause : Malformed)
deriving DecidableEq

/-- Makes a value of JSON. -/
abbrev Decoder (α : Type) : Type := Json → Except Fault α

/-! ### Reading -/

def text : Decoder String
  | .text s => .ok s
  | _ => .error .misfit

def bool : Decoder Bool
  | .bool b => .ok b
  | _ => .error .misfit

/-- Reads a text that has to parse. -/
def parsed {α : Type} (parse : String → Except Malformed α) : Decoder α := fun json => do
  (parse (← text json)).mapError .refused

def permission : Decoder Permission := parsed Permission.parse

def model : Decoder Model := parsed Model.parse

def path : Decoder Path := parsed Path.parse

def uuid : Decoder Uuid := fun json => do
  match Uuid.ofText? (← text json) with
  | some id => return id
  | none => .error .misfit

/-- Reads an array of members, in any order and however often each. -/
def set {α : Type} [Ord α] [Std.TransOrd α] (member : Decoder α) : Decoder (SortedSet α)
  | .array items => (items.mapM member).map .ofList
  | _ => .error .misfit

/-- The fault of the first member that is not fit for its field, if there is one; nor is a member of a
field that has been found before. -/
def checkMembers (fields : List (String × Decoder Unit)) :
    (found : List String) → List (String × Json) → Except Fault Unit
  | _, [] => .ok ()
  | found, (name, value) :: rest =>
    match fields.find? (·.1 == name) with
    | some (_, check) =>
      if name ∈ found then .error .misfit
      else do
        check value
        checkMembers fields (name :: found) rest
    | none => checkMembers fields found rest

/-- The values of the fields of a record, each fit for its field. -/
def fieldValues (fields : List (String × Decoder Unit)) : Decoder (List Json)
  | .object members => do
    checkMembers fields [] members
    fields.mapM fun field =>
      match members.find? (·.1 == field.1) with
      | some (_, value) => .ok value
      | none => .error .misfit
  | .array items => do
    let _ ← (fields.zip items).mapM fun (field, item) => field.2 item
    if items.length = fields.length then return items else .error .misfit
  | _ => .error .misfit

/-- A field of a record and the check that its value is fit. -/
def field {α : Type} (name : String) (decode : Decoder α) : String × Decoder Unit :=
  (name, fun json => (decode json).map fun _ => ())

def record₂ {α β : Type} (n₁ : String) (d₁ : Decoder α) (n₂ : String) (d₂ : Decoder β) :
    Decoder (α × β) := fun json => do
  match ← fieldValues [field n₁ d₁, field n₂ d₂] json with
  | [a, b] => return (← d₁ a, ← d₂ b)
  | _ => .error .misfit

def record₄ {α β γ δ : Type} (n₁ : String) (d₁ : Decoder α) (n₂ : String) (d₂ : Decoder β)
    (n₃ : String) (d₃ : Decoder γ) (n₄ : String) (d₄ : Decoder δ) :
    Decoder (α × β × γ × δ) := fun json => do
  match ← fieldValues [field n₁ d₁, field n₂ d₂, field n₃ d₃, field n₄ d₄] json with
  | [a, b, c, d] => return (← d₁ a, ← d₂ b, ← d₃ c, ← d₄ d)
  | _ => .error .misfit

def object : Decoder Object := fun json => do
  let (model, key) ← record₂ "model" model "object_id" text json
  return ⟨model, key⟩

def space : Decoder Space := fun json => do
  let (name, label) ← record₂ "name" text "label" text json
  return ⟨name, label⟩

def labelledPermission : Decoder LabelledPermission := fun json => do
  let (id, label) ← record₂ "id" permission "label" text json
  return ⟨id, label⟩

def role : Decoder Role := fun json => do
  let (id, label, permissions, groups) ←
    record₄ "role_id" uuid "label" text "permissions" (set permission) "groups" (set text) json
  return { id, label, permissions, groups }

def entry : Decoder Entry := fun json => do
  let (id, target, role, permissions) ←
    record₄ "acl_id" uuid "target" object "role_id" uuid "permissions" (set permission) json
  return { id := .given id, target, role, permissions }

def user : Decoder User := fun json => do
  let (subject, displayName, isSuperuser, isStaff) ←
    record₄ "subject" text "display_name" text "is_superuser" bool "is_staff" bool json
  return { subject, displayName, isSuperuser, isStaff }

/-- Reads one of some names: as a text, or as the name of the only member of an object, which is
null. -/
def name {α : Type} (names : List (String × α)) : Decoder α := fun json =>
  let named := fun name =>
    match names.find? (·.1 == name) with
    | some (_, a) => .ok a
    | none => .error .misfit
  match json with
  | .text name => named name
  | .object [(name, .null)] => named name
  | _ => .error .misfit

/-- The names of the ways to have access everywhere. -/
def accessNames : List (String × GlobalAccess) :=
  [GlobalAccess.byRole, .asSuperuser, .asStaff].map fun access => (access.toText, access)

/-- The names of the audited actions in records. -/
def actionNames : List (String × AuditAction) :=
  [("acl_created", .entryCreated), ("acl_edited", .entryEdited), ("acl_deleted", .entryDeleted),
    ("role_created", .roleCreated), ("role_deleted", .roleDeleted), ("role_edited", .roleEdited),
    ("group_membership_changed", .membershipChanged)]

def access : Decoder GlobalAccess := name accessNames

def action : Decoder AuditAction := name actionNames

/-! ### Writing -/

def ofSet {α : Type} [Ord α] (render : α → String) (members : SortedSet α) : Json :=
  .texts (members.toList.map render)

def ofObject (object : Object) : Json :=
  .object [("model", .text object.model.toText), ("object_id", .text object.key)]

def ofSpace (space : Space) : Json :=
  .object [("name", .text space.name), ("label", .text space.label)]

def ofLabelledPermission (permission : LabelledPermission) : Json :=
  .object [("id", .text permission.id.toText), ("label", .text permission.label)]

def ofRole (role : Role) : Json :=
  .object [
    ("role_id", .text role.id.toText), ("label", .text role.label),
    ("permissions", ofSet Permission.toText role.permissions), ("groups", ofSet id role.groups)]

def ofEntry (entry : Entry) : Json :=
  .object [
    ("acl_id", .text entry.id.toText), ("target", ofObject entry.target),
    ("role_id", .text entry.role.toText), ("permissions", ofSet Permission.toText entry.permissions)]

def ofUser (user : User) : Json :=
  .object [
    ("subject", .text user.subject), ("display_name", .text user.displayName),
    ("is_superuser", .bool user.isSuperuser), ("is_staff", .bool user.isStaff)]

/-- The name of a value among some names. -/
def ofName {α : Type} [DecidableEq α] (names : List (String × α)) (a : α) : Json :=
  .ofOption (fun entry => .text entry.1) (names.find? (·.2 = a))

def ofAccess (access : GlobalAccess) : Json := ofName accessNames access

def ofAction (action : AuditAction) : Json := ofName actionNames action

end Entitlement.Record
