import Entitlement.Attempt
import Entitlement.Condition.Walk
import Entitlement.Registry.Administration
import Entitlement.Store
import Entitlement.User

/-!
# Sites

A site is a store together with the registry and the overrides that access is decided by. Relations
may be pinned: a pinned one counts in place of what the store says, and need not stay clear of
cycles.
-/

namespace Entitlement

/-- What following a pinned relation gives. -/
inductive Pin where
  | leadsTo (object : Object)
  | fails (text : String)
deriving DecidableEq

/-- A store and what access to its objects is decided by. -/
structure Site (σ : Type) where
  registry : Registry
  overrides : Overrides := {}
  store : σ
  pinned : SortedMap RelationKey Pin := ∅
  /-- How many identifiers have been drawn for new roles. -/
  rolesDrawn : Nat := 0

namespace Site

variable {σ α : Type} [Store σ]

def relations (site : Site σ) : Relations := fun object relation =>
  match site.pinned.get? ⟨object, relation⟩ with
  | some (.leadsTo next) => .ok (some next)
  | some (.fails text) => .error (.unresolvable text)
  | none => Store.related site.store object relation

/-- Pins a relation of an object. -/
def pin (site : Site σ) (object : Object) (relation : String) (pin : Pin) : Site σ :=
  { site with pinned := site.pinned.insert ⟨object, relation⟩ pin }

/-- A request that changes the store. -/
def change (request : σ → Except Failure (α × σ)) : Attempt (Site σ) α :=
  .step fun site => (request site.store).map fun (a, store) => (a, { site with store })

/-- A request that changes the store and has no other answer. -/
def put (request : σ → Except Failure σ) : Attempt (Site σ) Unit :=
  change fun store => (request store).map ((), ·)

/-- The identifier that is given for a new role, or else a fresh one. -/
def newRoleId (given : Option RoleId) : Attempt (Site σ) RoleId := fun site =>
  match given with
  | some id => (.ok id, site)
  | none => (.ok (Uuid.drawn (site.rolesDrawn + 1)), { site with rolesDrawn := site.rolesDrawn + 1 })

/-- The condition on an object of the site. -/
def condition (site : Site σ) (object : Object) : Except Failure Condition :=
  Condition.ofObject site.registry site.relations object

/-- Fails for an object of a model of which nothing is registered. -/
def requireRegistered (site : Site σ) (object : Object) : Except Failure Unit :=
  if site.registry.isRegistered object.model then .ok () else .error (.unknownModel object.model)

def role (site : Site σ) (id : RoleId) : Except Failure Role := do
  match ← Store.findRole site.store id with
  | some role => return role
  | none => .error (.roleMissing id)

end Site

end Entitlement
