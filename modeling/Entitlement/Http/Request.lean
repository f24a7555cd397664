import Entitlement.Body
import Entitlement.Http.Media
import Entitlement.Http.Route
import Entitlement.Operation
import Entitlement.Text.Percent

/-!
# Requests

What a request asks for. Its path is read before its body, and both before the values in them are
made sense of; the first thing wrong is what it is refused for.
-/

namespace Entitlement.Http

open Body (Reader record₁ record₂)

structure Request where
  method : String
  /-- The path with its query, after a scheme and an authority or without them. -/
  target : String
  /-- The headers with their names, in their order. -/
  headers : List (String × String) := []
  body : Option String := none
deriving DecidableEq

/-- Why a request is not carried out. -/
inductive Refusal where
  /-- There is nothing under the path. -/
  | noRoute
  /-- The path does not have the method. -/
  | noMethod
  /-- The path, the query or the body is no such thing. -/
  | badRequest
  /-- The body does not come as JSON. -/
  | badMedia
  /-- The body is longer than any that is read. -/
  | tooLarge
  /-- The body is JSON of another shape. -/
  | badShape
  | failed (failure : Failure)
deriving DecidableEq

/-- The failure of a refused value. -/
def orFail {α : Type} : Except Failure α → Except Refusal α := Except.mapError .failed

namespace Request

/-- Whether a character may stand in the scheme of a target. -/
def isSchemeChar (c : Char) : Bool := c.isAlphanum || c == '+' || c == '-' || c == '.'

/-- The target without scheme and authority. -/
def localTarget (request : Request) : String :=
  match request.target.toList.dropWhile isSchemeChar with
  | ':' :: '/' :: '/' :: rest =>
    String.ofList (rest.dropWhile fun c => c != '/' && c != '?' && c != '#')
  | _ => request.target

/-- The target up to a fragment, which is no part of a request. -/
def resource (request : Request) : String := ((Text.split '#' request.localTarget).head?).getD ""

def path (request : Request) : String := ((Text.split '?' request.resource).head?).getD ""

/-- The fields of the query. -/
def query (request : Request) : List (String × String) :=
  match Text.cut '?' request.resource with
  | some (_, query) => Text.formPairs query
  | none => []

/-- The method that decides what is asked for: a `HEAD` asks for what a `GET` does. -/
def verb (request : Request) : String := if request.method = "HEAD" then "GET" else request.method

/-- The first header of a name, in whichever case, if its characters are printable ASCII and tabs. -/
def header? (request : Request) (name : String) : Option String := do
  let (_, value) ← request.headers.find? fun header => Text.lower header.1 = Text.lower name
  if value.toList.all fun c => c = '\t' || (' ' ≤ c && c ≤ '~') then some value else none

/-- The subject that a header names, unless it is blank. -/
def subject? (request : Request) (header : String) : Option String := do
  let value ← request.header? header
  if Text.allBlank value then none else some (Text.trim value)

/-! ### Bodies -/

/-- The length in bytes of the longest body that is read: 2 MiB. -/
def maxBodySize : Nat := 2097152

/-- Reads the body, which has to be announced as JSON. -/
def readBody {α : Type} (request : Request) (read : Reader α) : Except Refusal α :=
  let announced := match request.header? "content-type" with
    | some contentType => announcesJson contentType
    | none => false
  let body := request.body.getD ""
  if ! announced then .error .badMedia
  else if maxBodySize < body.utf8ByteSize then .error .tooLarge
  else
    match Body.readAll read body with
    | .ok a => .ok a
    | .error .malformed => .error .badRequest
    | .error .misfit => .error .badShape

/-- Reads the model and the key of an object. -/
def objectBody : Reader (String × String) :=
  record₂ "content_type" Body.text "object_id" Body.text

/-! ### Values -/

/-- What a parameter of a path says. -/
def parameter (escaped : String) : Except Refusal String :=
  match Text.percentDecode? escaped with
  | some text => .ok text
  | none => .error .badRequest

/-- What the two parameters of a path that name an object say. -/
def objectParameters (model key : String) : Except Refusal (String × String) := do
  return (← parameter model, ← parameter key)

/-- The role that a parameter of a path names. -/
def roleParameter (escaped : String) : Except Refusal RoleId := do
  match Uuid.ofText? (← parameter escaped) with
  | some id => return id
  | none => .error .badRequest

/-- The object of a model and a key. -/
def objectOf (model key : String) : Except Refusal Object :=
  orFail (refused (Object.parse model key))

def permissionOf (text : String) : Except Refusal Permission :=
  orFail (refused (Permission.parse text))

/-- A permission that has to be declared. -/
def declaredPermission (registry : Registry) (text : String) : Except Refusal Permission := do
  let permission ← permissionOf text
  let _ ← orFail (registry.validate permission)
  return permission

/-- The one value of a field of the query, if it is there. -/
def field? (fields : List (String × String)) (name : String) : Except Refusal (Option String) :=
  match fields.filter (·.1 == name) with
  | [] => .ok none
  | [(_, value)] => .ok (some value)
  | _ => .error .badRequest

/-- The number in a field of the query, or a default. -/
def count (fields : List (String × String)) (name : String) (default : Nat) :
    Except Refusal Nat := do
  match ← field? fields name with
  | none => return default
  | some value =>
    match Text.unsigned? Text.maxWord value with
    | some n => return n
    | none => .error .badRequest

/-- The page of the audit trail that a query asks for. -/
def auditQuery (fields : List (String × String)) : Except Refusal AuditQuery := do
  let limit ← count fields "limit" 50
  let offset ← count fields "offset" 0
  let action ← field? fields "action"
  let subject ← field? fields "subject"
  let action ← orFail (refused (action.mapM AuditAction.parse))
  return { limit, offset, action, subject }

/-! ### Operations -/

/-- Reads the body that grants or revokes a permission on an object. -/
def entryBody : Reader (String × RoleId) :=
  record₂ "permission" Body.text "role_id" (Body.text.filterMap Uuid.ofText?)

/-- What a request on a route asks for; the identifier is for a role that it creates. -/
def operationOn (request : Request) (registry : Registry) (id : Option RoleId) (route : Route) :
    Except Refusal Operation := do
  match request.verb, route with
  | "GET", .permissions => return .listPermissions
  | "GET", .models => return .listModels
  | "GET", .roles => return .listRoles
  | "POST", .roles =>
    let label ← request.readBody (record₁ "label" Body.text)
    return .createRole label id
  | "GET", .role role => return .viewRole (← roleParameter role)
  | "DELETE", .role role => return .deleteRole (← roleParameter role)
  | "POST", .rolePermissions role =>
    let role ← roleParameter role
    let permission ← request.readBody (record₁ "permission" Body.text)
    return .grantToRole role (← permissionOf permission)
  | "DELETE", .rolePermission role permission =>
    let role ← roleParameter role
    let permission ← parameter permission
    return .revokeFromRole role (← permissionOf permission)
  | "POST", .roleGroups role =>
    let role ← roleParameter role
    let group ← request.readBody (record₁ "group" Body.text)
    return .attachGroup role group
  | "DELETE", .roleGroup role group =>
    return .detachGroup (← roleParameter role) (← parameter group)
  | "GET", .members group => return .listMembers (← parameter group)
  | "POST", .members group =>
    let group ← parameter group
    let subject ← request.readBody (record₁ "subject" Body.text)
    return .addMember group subject
  | "DELETE", .member group subject =>
    return .removeMember (← parameter group) (← parameter subject)
  | "GET", .entries model key =>
    let (model, key) ← objectParameters model key
    return .viewEntries (← objectOf model key)
  | "POST", .grant model key =>
    let (model, key) ← objectParameters model key
    let (permission, role) ← request.readBody entryBody
    return .grant (← objectOf model key) (← permissionOf permission) role
  | "POST", .revoke model key =>
    let (model, key) ← objectParameters model key
    let (permission, role) ← request.readBody entryBody
    return .revoke (← objectOf model key) (← permissionOf permission) role
  | "GET", .inherited model key role =>
    let (model, key) ← objectParameters model key
    let role ← roleParameter role
    return .viewInherited (← objectOf model key) role
  | "PUT", .relation model key relation =>
    let (model, key) ← objectParameters model key
    let relation ← parameter relation
    let (parentModel, parentKey) ← request.readBody objectBody
    let child ← objectOf model key
    return .setRelation child relation (← objectOf parentModel parentKey)
  | "DELETE", .relation model key relation =>
    let (model, key) ← objectParameters model key
    let relation ← parameter relation
    return .clearRelation (← objectOf model key) relation
  | "POST", .restrict =>
    let (permission, objects) ←
      request.readBody (record₂ "permission" Body.text "objects" (Body.list objectBody))
    let permission ← declaredPermission registry permission
    return .restrict permission (← objects.mapM fun (model, key) => objectOf model key)
  | "POST", .explain =>
    let (permission, model, key) ←
      request.readBody (record₂ "permission" Body.text "target" objectBody)
    let permission ← declaredPermission registry permission
    return .explain permission (← objectOf model key)
  | "GET", .auditLog => return .listAudit (← auditQuery request.query)
  | _, _ => .error .noMethod

end Request

end Entitlement.Http
