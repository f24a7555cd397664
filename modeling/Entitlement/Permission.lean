import Entitlement.Malformed
import Entitlement.Order
import Entitlement.Text.Blank
import Entitlement.Text.Cut

/-!
# Permissions

A permission is named by a space and a name inside it, written `space.name`. Neither part is empty
or has a dot or white space in it, so the written form tells them apart.
-/

namespace Entitlement

open Text

/-- A character that is neither a dot nor white space. -/
def isSegmentChar (c : Char) : Bool := c != '.' && ! isBlank c

/-- A text without dots and white space, and not empty. -/
def IsSegment (s : String) : Prop := s ≠ "" ∧ s.toList.all isSegmentChar

instance (s : String) : Decidable (IsSegment s) := inferInstanceAs (Decidable (_ ∧ _))

/-- Reads a part of a permission, white space around it aside. -/
def readSegment (part : Part) (s : String) : Except Malformed { t : String // IsSegment t } :=
  let t := trim s
  if filled : t = "" then .error (.emptyPart part)
  else if plain : t.toList.all isSegmentChar then .ok ⟨t, filled, plain⟩
  else .error (.dottedPart part t)

/-- The name of a permission. -/
structure Permission where
  space : String
  name : String
  space_segment : IsSegment space
  name_segment : IsSegment name
deriving DecidableEq

namespace Permission

instance : Ord Permission := ⟨compareLex (compareOn (·.space)) (compareOn (·.name))⟩
instance : Std.TransOrd Permission := inferInstanceAs
  (Std.TransCmp (compareLex (compareOn fun p : Permission => p.space) (compareOn (·.name))))
instance : Std.LawfulEqOrd Permission := lawful_lex fun a b space name => by
  cases a; cases b; cases space; cases name; rfl

def toText (p : Permission) : String := p.space ++ "." ++ p.name

/-- The permission with the given parts, white space around them aside. -/
def of? (space name : String) : Except Malformed Permission := do
  let space ← readSegment .permissionSpace space
  let name ← readSegment .permissionName name
  return ⟨space, name, space.property, name.property⟩

/-- Reads the written form, cut at its first dot. -/
def parse (s : String) : Except Malformed Permission :=
  match cut '.' s with
  | some (space, name) => of? space name
  | none => .error (.permissionForm s)

end Permission

structure Space where
  name : String
  label : String
deriving DecidableEq

/-- A space with a valid name and a label that is not blank. -/
def Space.of? (name label : String) : Except Malformed Space := do
  let name ← readSegment .permissionSpace name
  if allBlank label then .error (.blankSpaceLabel name) else return ⟨name, label⟩

/-- A permission with the label it is declared under. -/
structure LabelledPermission where
  id : Permission
  label : String
deriving DecidableEq

/-- A permission of the space with a label that is not blank. -/
def LabelledPermission.of? (space : Space) (name label : String) :
    Except Malformed LabelledPermission := do
  let id ← Permission.of? space.name name
  if allBlank label then .error (.blankPermissionLabel id.toText) else return ⟨id, label⟩

end Entitlement
