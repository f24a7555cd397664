import Entitlement.Failure

/-!
# The registry

Which permissions exist, which of them mean something for which models, and through which relation
paths the objects of a model inherit entries. A model may stand for another one (a proxy) and then
shares everything with it.
-/

namespace Entitlement

/-- What is declared about permissions and models. -/
structure Registry where
  /-- The label of each declared space of permissions. -/
  spaces : SortedMap String String := ∅
  /-- The label of each declared permission. -/
  labels : SortedMap Permission String := ∅
  /-- The permissions registered for a model. -/
  applicable : SortedMap Model (SortedSet Permission) := ∅
  /-- The paths declared for a model, in the order of their declaration. -/
  inheritance : SortedMap Model (List Path) := ∅
  /-- The model that a proxy stands for. -/
  proxies : SortedMap Model Model := ∅
deriving DecidableEq

namespace Registry

instance : EmptyCollection Registry := ⟨{}⟩
instance : Inhabited Registry := ⟨∅⟩

/-! ### Reading -/

/-- The model that counts for a model: the one it stands for, else itself. -/
def base (r : Registry) (model : Model) : Model := (r.proxies.get? model).getD model

/-- The permissions that mean something for objects of the model. -/
def permissionsOf (r : Registry) (model : Model) : SortedSet Permission :=
  (r.applicable.get? (r.base model)).getD ∅

/-- Whether the permission means something for objects of the model. -/
def applies (r : Registry) (model : Model) (permission : Permission) : Bool :=
  (r.permissionsOf model).contains permission

/-- Whether anything is registered for the model. -/
def isRegistered (r : Registry) (model : Model) : Bool :=
  r.applicable.contains (r.base model) || r.inheritance.contains (r.base model)

/-- The paths through which objects of the model inherit entries; fails for a model of which nothing
is registered. -/
def pathsOf (r : Registry) (model : Model) : Except Failure (List Path) :=
  match r.inheritance.get? (r.base model) with
  | some paths => .ok paths
  | none =>
    if r.applicable.contains (r.base model) then .ok []
    else .error (.unknownModel (r.base model))

/-- The models that any declaration is about, proxies among them. -/
def models (r : Registry) : SortedSet Model :=
  .ofList (r.applicable.keys ++ r.inheritance.keys ++ r.proxies.keys)

def permission? (r : Registry) (id : Permission) : Option LabelledPermission :=
  (r.labels.get? id).map (⟨id, ·⟩)

/-- Fails for a permission that is not declared. -/
def validate (r : Registry) (id : Permission) : Except Failure LabelledPermission :=
  match r.permission? id with
  | some permission => .ok permission
  | none => .error (.unknownPermission id)

def spaceList (r : Registry) : List Space := r.spaces.toList.map fun entry => ⟨entry.1, entry.2⟩

def permissionList (r : Registry) : List LabelledPermission :=
  r.labels.toList.map fun entry => ⟨entry.1, entry.2⟩

def permissionsIn (r : Registry) (space : String) : List LabelledPermission :=
  r.permissionList.filter (·.id.space == space)

/-! ### Declaring -/

/-- Declares a space; declaring it again under its label changes nothing. -/
def declareSpace (r : Registry) (name label : String) : Except Failure (Space × Registry) := do
  let space ← refused (Space.of? name label)
  match r.spaces.get? space.name with
  | some label =>
    if label = space.label then return (space, r) else .error (.spaceTaken space.name label)
  | none => return (space, { r with spaces := r.spaces.insert space.name space.label })

/-- Declares a permission of a declared space; declaring it again under its label changes
nothing. -/
def declarePermission (r : Registry) (space : Space) (name label : String) :
    Except Failure (Permission × Registry) := do
  if ! r.spaces.contains space.name then .error (.spaceUndeclared space.name)
  let permission ← refused (LabelledPermission.of? space name label)
  match r.labels.get? permission.id with
  | some label =>
    if label = permission.label then return (permission.id, r)
    else .error (.permissionTaken permission.id label)
  | none =>
    return (permission.id, { r with labels := r.labels.insert permission.id permission.label })

/-- Fails for a model that stands for another one. -/
def requireNoProxy (r : Registry) (model : Model) : Except Failure Unit :=
  match r.proxies.get? model with
  | some base => .error (.registeredOnProxy model base)
  | none => .ok ()

/-- Registers declared permissions for a model, beside those it has. -/
def register (r : Registry) (model : Model) (permissions : List Permission) :
    Except Failure Registry := do
  match permissions.find? (! r.labels.contains ·) with
  | some permission => .error (.permissionUndeclared permission model)
  | none =>
    r.requireNoProxy model
    let known := (r.applicable.get? model).getD ∅
    return { r with applicable := r.applicable.insert model (known.insertAll permissions) }

/-- Declares that objects of the model inherit entries through a path, beside those it has. -/
def inherit (r : Registry) (model : Model) (relation : String) : Except Failure Registry := do
  let path ← refused (Path.parse relation)
  r.requireNoProxy model
  let known := (r.inheritance.get? model).getD []
  let paths := if path ∈ known then known else known ++ [path]
  return { r with inheritance := r.inheritance.insert model paths }

/-- Lets a model without registrations stand for another one that is no proxy. -/
def standFor (r : Registry) (proxy base : Model) : Except Failure Registry :=
  if proxy = base then .error (.proxyOfItself proxy)
  else if r.proxies.contains base then .error (.proxyOfProxy base)
  else if r.applicable.contains proxy || r.inheritance.contains proxy then
    .error (.proxyHasOwn proxy)
  else .ok { r with proxies := r.proxies.insert proxy base }

/-- One declaration. -/
inductive Declaration where
  | space (name label : String)
  | permission (space : Space) (name label : String)
  | register (model : Model) (permissions : List Permission)
  | inherit (model : Model) (relation : String)
  | standFor (proxy base : Model)
deriving DecidableEq

/-- The registry with one declaration more. -/
def declare (r : Registry) : Declaration → Except Failure Registry
  | .space name label => (r.declareSpace name label).map (·.2)
  | .permission space name label => (r.declarePermission space name label).map (·.2)
  | .register model permissions => r.register model permissions
  | .inherit model relation => r.inherit model relation
  | .standFor proxy base => r.standFor proxy base

/-- The registry after some declarations, those that fail passed over. -/
def declareAll (r : Registry) (declarations : List Declaration) : Registry :=
  declarations.foldl (fun r declaration => (r.declare declaration).toOption.getD r) r

end Registry

end Entitlement
