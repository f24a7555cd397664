import Entitlement.Access.Everywhere

/-!
# Administration of relations

Relations decide what is inherited, so writing one takes the permission to edit entries everywhere,
objects of registered models and a single relation name.
-/

namespace Entitlement.Site

variable {σ : Type} [Store σ]

/-- Fails unless the text is a path of one hop. -/
def requireSingleHop (relation : String) : Except Failure Unit := do
  let path ← refused (Path.parse relation)
  if path.hops.length ≠ 1 then .error (.manyHops relation)

/-- Fails unless the user may write the relation between the objects. -/
def requireRelationEdit (site : Site σ) (actor : User) (objects : List Object)
    (relation : String) : Except Failure Unit := do
  requireSingleHop relation
  objects.forM site.requireRegistered
  site.requireEverywhere actor editEntries

/-- Lets a relation of `child` lead to `parent`. -/
def setRelation (actor : User) (child : Object) (relation : String) (parent : Object) :
    Attempt (Site σ) Unit := do
  Attempt.look fun site => site.requireRelationEdit actor [child, parent] relation
  put fun store => Store.setRelation store child relation parent

/-- Lets a relation of `child` lead nowhere. -/
def clearRelation (actor : User) (child : Object) (relation : String) :
    Attempt (Site σ) Unit := do
  Attempt.look fun site => site.requireRelationEdit actor [child] relation
  put fun store => Store.clearRelation store child relation

end Entitlement.Site
