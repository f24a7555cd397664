import Entitlement.Model
import Entitlement.SortedSet

/-!
# Conditions

A condition says on which objects an entry has to grant a permission for access to one object. It is
a tree of such objects, combined by "any" and "all", which `holds` evaluates against the objects on
which the permission is granted.
-/

namespace Entitlement

/-- A condition on the objects on which a permission is granted. -/
inductive Condition where
  /-- The permission is granted on this object. -/
  | granted (object : Object)
  /-- Never holds: a relation on the way is not set. -/
  | unreachable
  | any (branches : List Condition)
  /-- There are branches, and all of them hold. -/
  | all (branches : List Condition)

namespace Condition

mutual

/-- Whether the condition holds for these objects. -/
def holds (grants : SortedSet Object) : Condition → Bool
  | .granted object => grants.contains object
  | .unreachable => false
  | .any branches => anyHolds grants branches
  | .all branches => ! branches.isEmpty && allHold grants branches

def anyHolds (grants : SortedSet Object) : List Condition → Bool
  | [] => false
  | branch :: rest => branch.holds grants || anyHolds grants rest

def allHold (grants : SortedSet Object) : List Condition → Bool
  | [] => true
  | branch :: rest => branch.holds grants && allHold grants rest

end

mutual

/-- The objects that the condition mentions, from left to right and as often as it does. -/
def objects : Condition → List Object
  | .granted object => [object]
  | .unreachable => []
  | .any branches => objectsOf branches
  | .all branches => objectsOf branches

def objectsOf : List Condition → List Object
  | [] => []
  | branch :: rest => branch.objects ++ objectsOf rest

end

theorem anyHolds_eq_any (grants : SortedSet Object) (branches : List Condition) :
    anyHolds grants branches = branches.any (·.holds grants) := by
  induction branches with
  | nil => rfl
  | cons branch rest ih => rw [anyHolds, ih, List.any_cons]

theorem allHold_eq_all (grants : SortedSet Object) (branches : List Condition) :
    allHold grants branches = branches.all (·.holds grants) := by
  induction branches with
  | nil => rfl
  | cons branch rest ih => rw [allHold, ih, List.all_cons]

end Condition

end Entitlement
