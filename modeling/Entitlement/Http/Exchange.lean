import Entitlement.Http.Request
import Entitlement.View

/-!
# Exchanges

A request and the response to it. Anyone may ask for the health of a site; everything else takes a
subject, which is asked for before anything but the path is looked at.
-/

namespace Entitlement

namespace Http

structure Response where
  status : Nat
  body : Option Json := none

end Http

open Http

/-- The status that tells a kind of report. -/
def Report.status : Report → Nat
  | .validation _ => 400
  | .permissionNotValid _ _ => 400
  | .unauthorized _ => 401
  | .forbidden _ => 403
  | .notFound _ => 404
  | .conflict _ => 409
  | .unknownModel _ => 422
  | .internal _ => 500

def Failure.response (failure : Failure) : Response :=
  ⟨failure.report.status, some failure.report.view⟩

/-- The response to a request that is not carried out. -/
def Http.Refusal.response : Refusal → Response
  | .noRoute => ⟨404, none⟩
  | .noMethod => ⟨405, none⟩
  | .badRequest => ⟨400, none⟩
  | .badMedia => ⟨415, none⟩
  | .tooLarge => ⟨413, none⟩
  | .badShape => ⟨422, none⟩
  | .failed failure => failure.response

/-- The response that gives an answer. -/
def Answer.response : Answer → Response
  | .done => ⟨204, none⟩
  | .permissions declared => ⟨200, some (.array (declared.map (·.view)))⟩
  | .models registry => ⟨200, some (.array (registry.models.toList.map (viewModel registry)))⟩
  | .roles list => ⟨200, some (.array (list.map (·.view)))⟩
  | .created new => ⟨201, some new.view⟩
  | .role found => ⟨200, some found.view⟩
  | .members subjects => ⟨200, some (.texts subjects)⟩
  | .entries list => ⟨200, some (.array (list.map (·.view)))⟩
  | .outcome result => ⟨200, some result.view⟩
  | .inherited holder held => ⟨200, some (viewInheritance holder held)⟩
  | .objects kept => ⟨200, some (.object [("objects", .array (kept.map (·.view)))])⟩
  | .explanation found => ⟨200, some found.view⟩
  | .audit page => ⟨200, some (.array (page.map (·.view)))⟩

namespace Site

variable {σ : Type} [Store σ]

/-- Responds to a request on a route, for the subject that a header names; the identifier is for a
role that the request creates. -/
def respond (subjectHeader : String) (request : Request) (id : Option RoleId) (route : Route) :
    Site σ → Response × Site σ := fun site =>
  if route = .health then
    if request.verb = "GET" then (⟨200, some (.object [("status", .text "ok")])⟩, site)
    else (Refusal.noMethod.response, site)
  else
    match request.subject? subjectHeader with
    | none => (Failure.unauthenticated.response, site)
    | some subject =>
      match request.operationOn site.registry id route with
      | .error refusal => (refusal.response, site)
      | .ok operation =>
        match perform (site.overrides.user subject) operation site with
        | (.ok answer, site) => (answer.response, site)
        | (.error failure, site) => (failure.response, site)

/-- Responds to a request; one that asks for the head alone gets no body. -/
def serve (subjectHeader : String) (request : Request) (id : Option RoleId) :
    Site σ → Response × Site σ := fun site =>
  match Route.ofPath? request.path with
  | none => (Refusal.noRoute.response, site)
  | some route =>
    let (response, site) := respond subjectHeader request id route site
    (if request.method = "HEAD" then { response with body := none } else response, site)

end Site

end Entitlement
