import Entitlement.Permission
import Entitlement.SortedSet
import Entitlement.Uuid

/-!
# Roles

A role is a label with permissions that hold on every object and groups whose members have the role.
-/

namespace Entitlement

open Text

abbrev RoleId := Uuid

/-- A named bundle of permissions, held by the members of its groups. -/
structure Role where
  id : RoleId
  label : String
  permissions : SortedSet Permission
  groups : SortedSet String
deriving DecidableEq

/-- One change of a role. -/
inductive RoleEdit where
  | grant (permission : Permission)
  | revoke (permission : Permission)
  | attach (group : String)
  | detach (group : String)
deriving DecidableEq

/-- A text that is not blank, white space around it dropped. -/
def filledText (s : String) : Except Malformed String :=
  if allBlank s then .error .blank else .ok (trim s)

/-- A group's name as it is stored: not blank, and without white space around it. -/
def groupName (s : String) : Except Malformed String := filledText s

/-- The edit with the name of a group to attach as it is stored. -/
def RoleEdit.normal : RoleEdit → Except Malformed RoleEdit
  | .attach group => (groupName group).map .attach
  | edit => .ok edit

namespace Role

/-- A role as stored: its label is not blank, and kept as it stands. -/
def of? (id : RoleId) (label : String) (permissions : SortedSet Permission)
    (groups : SortedSet String) : Except Malformed Role :=
  if allBlank label then .error .blank else .ok { id, label, permissions, groups }

def bare (id : RoleId) (label : String) : Role := { id, label, permissions := ∅, groups := ∅ }

/-- A new role; white space around its label is dropped. -/
def named (id : RoleId) (label : String) : Except Malformed Role := (filledText label).map (bare id)

def edit (role : Role) : RoleEdit → Role
  | .grant permission => { role with permissions := role.permissions.insert permission }
  | .revoke permission => { role with permissions := role.permissions.erase permission }
  | .attach group => { role with groups := role.groups.insert group }
  | .detach group => { role with groups := role.groups.erase group }

/-- Whether an edit would leave the role different. -/
def changedBy (role : Role) : RoleEdit → Bool
  | .grant permission => ! role.permissions.contains permission
  | .revoke permission => role.permissions.contains permission
  | .attach group => ! role.groups.contains group
  | .detach group => role.groups.contains group

def holds (role : Role) (permission : Permission) : Bool := role.permissions.contains permission

end Role

end Entitlement
