import Entitlement.Condition
import Entitlement.Registry

/-!
# Walking the inheritance paths

The condition on one object is found by following the declared paths from it to its parents, from
those to theirs, and so on. A walk ends where a relation is not set, where it comes back to an object
on its chain, and after `maxDepth` paths. Parents that a walk has left without such an early end are
noted and taken as they are when it comes to them again.
-/

namespace Entitlement

/-- Which object a relation of an object leads to, if it is set. -/
abbrev Relations : Type := Object → String → Except Failure (Option Object)

/-- How many paths one after another a walk follows. -/
def maxDepth : Nat := 32

/-- Where some hops lead from an object, unless one of the relations is not set. -/
def Relations.follow (relations : Relations) (object : Object) :
    List String → Except Failure (Option Object)
  | [] => .ok (some object)
  | hop :: rest => do
    match ← relations object hop with
    | some next => relations.follow next rest
    | none => return none

namespace Condition

/-- Where a walk stands. -/
structure Walk where
  /-- The objects on the way from the first one, the latest one first. -/
  chain : List Object
  /-- The conditions of the objects that were left without an early end. -/
  noted : SortedMap Object (List Condition) := ∅

/-- What following one path adds: conditions, and whether the walk ended early somewhere in it. -/
structure Expansion where
  conditions : List Condition
  cut : Bool

namespace Expansion

/-- The expansion of a relation that is not set. -/
def unset : Expansion := ⟨[.unreachable], false⟩

/-- The expansion of a path that is not followed further. -/
def cutOff : Expansion := ⟨[.unreachable], true⟩

end Expansion

namespace Walk

/-- Expands the paths of an object one after another. -/
def expandEach (expand : Walk → Path → Except Failure (Expansion × Walk)) (walk : Walk) :
    List Path → Except Failure (List Expansion × Walk)
  | [] => .ok ([], walk)
  | path :: rest => do
    let (expansion, walk) ← expand walk path
    let (expansions, walk) ← walk.expandEach expand rest
    return (expansion :: expansions, walk)

/-- The conditions of an object whose paths have these expansions: it is granted, or all of some
path's conditions hold. -/
def conditionsOf (object : Object) (expansions : List Expansion) : List Condition :=
  .granted object ::
    if expansions.isEmpty then []
    else [.any (expansions.map fun expansion => .all expansion.conditions)]

/-- The walk after leaving the object that it came to last. -/
def leave (walk : Walk) (object : Object) (expansion : Expansion) : Walk where
  chain := walk.chain.tail
  noted := if expansion.cut then walk.noted else walk.noted.insert object expansion.conditions

/-- Expands the path that has led to an object, with `room` objects still to be had on the chain. -/
def expand (registry : Registry) (relations : Relations) :
    (room : Nat) → Walk → Option Object → Except Failure (Expansion × Walk)
  | _, walk, none => .ok (.unset, walk)
  | 0, walk, some _ => .ok (.cutOff, walk)
  | room + 1, walk, some object =>
    if object ∈ walk.chain then .ok (.cutOff, walk)
    else
      match walk.noted.get? object with
      | some conditions => .ok (⟨conditions, false⟩, walk)
      | none => do
        let paths ← registry.pathsOf object.model
        let (expansions, walk) ← expandEach
          (fun walk path => do
            expand registry relations room walk (← relations.follow object path.hops))
          { walk with chain := object :: walk.chain } paths
        let expansion := ⟨conditionsOf object expansions, expansions.any (·.cut)⟩
        return (expansion, walk.leave object expansion)

end Walk

/-- The condition on an object: it is granted, or one of the conditions of some parent holds. -/
def ofObject (registry : Registry) (relations : Relations) (object : Object) :
    Except Failure Condition := do
  let paths ← registry.pathsOf object.model
  let (expansions, _) ← Walk.expandEach
    (fun walk path => do
      walk.expand registry relations maxDepth (← relations.follow object path.hops))
    { chain := [object] } paths
  let parents := expansions.map fun expansion => .any expansion.conditions
  return .any (.granted object :: if parents.isEmpty then [] else [.any parents])

end Condition

end Entitlement
