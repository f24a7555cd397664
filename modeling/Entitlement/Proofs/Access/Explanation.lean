import Entitlement.Http.Exchange
import Entitlement.Proofs.Access.Agreement
import Entitlement.Proofs.Condition.Viewed
import Entitlement.Proofs.Inheritance.Specification
import Entitlement.Proofs.Store.Relations

/-!
# What explanations say

The condition of an explanation is the specified one (`Site.condition_specified`): stored relations have no
cycles, so that a walk within the depth is never cut. An explanation as clients get it needs nothing but
itself to be checked (`Site.explanation_bears_out`).
-/

namespace Entitlement

open Condition.Walk (Visits)
open Relation (ReflTransGen TransGen)

/-! ### Stored relations -/

namespace Memory

variable {m : Memory} {child parent : Object}

/-- Where a path leads from an object by stored relations, unless one of them is not set. -/
def resolve (m : Memory) (object : Object) (path : Path) : Option Object :=
  path.hops.foldlM (fun object hop => m.relations.get? ⟨object, hop⟩) object

theorem leads_of_foldlM {hops : List String}
    (led : hops.foldlM (fun object hop => m.relations.get? ⟨object, hop⟩) child = some parent) :
    ReflTransGen (Leads m.relations) child parent := by
  induction hops generalizing child with
  | nil =>
    cases led
    exact .refl
  | cons hop rest ih =>
    rw [List.foldlM_cons] at led
    obtain ⟨next, here, led⟩ := Option.bind_eq_some_iff.mp led
    exact .head ⟨hop, here⟩ (ih led)

/-- A path has names, so that it leads up. -/
theorem leads_of_resolve {path : Path} (led : m.resolve child path = some parent) :
    TransGen (Leads m.relations) child parent := by
  obtain ⟨hop, rest, hops⟩ := List.exists_cons_of_ne_nil path.filled
  rw [resolve, hops, List.foldlM_cons] at led
  obtain ⟨next, here, led⟩ := Option.bind_eq_some_iff.mp led
  exact .head' ⟨hop, here⟩ (leads_of_foldlM led)

end Memory

namespace Site

variable {site : Site Memory}

theorem follow_stored (unpinned : site.pinned = ∅) (object : Object) (path : Path) :
    site.relations.follow object path.hops = .ok (site.store.resolve object path) := by
  unfold Memory.resolve
  induction path.hops generalizing object with
  | nil => rfl
  | cons hop rest ih =>
    have here : site.relations object hop = .ok (site.store.relations.get? ⟨object, hop⟩) := by
      unfold relations
      rw [unpinned]
      rfl
    rw [Relations.follow, here, List.foldlM_cons]
    cases site.store.relations.get? ⟨object, hop⟩ with
    | none => rfl
    | some next => exact ih next

theorem isParent_acyclic (unpinned : site.pinned = ∅) (acyclic : Acyclic site.store.relations)
    (object : Object) : ¬ TransGen (IsParent site.registry site.relations) object object := by
  have rises : IsParent site.registry site.relations ≤ TransGen (Leads site.store.relations) := by
    rintro child parent ⟨_, _, path, _, led⟩
    rw [follow_stored unpinned] at led
    exact Memory.leads_of_resolve (Except.ok.inj led)
  exact fun way => acyclic object (TransGen.closed rises _ _ way)

/-! ### The specified condition -/

/-- Where all objects above an object are of registered models, and no way from it is longer than a walk
follows, the equations have a solution, and each gives the condition on the object and in every explanation.
The walk neither comes back to an object nor runs out of room. -/
theorem condition_specified (site : Site Memory) (changes : List Change)
    (stored : site.store = Change.run ∅ changes) (unpinned : site.pinned = ∅) (object : Object)
    (known : ∀ other, ReflTransGen (IsParent site.registry site.relations) object other →
      site.registry.isRegistered other.model = true)
    (shallow : ∀ way, (object :: way).IsChain (IsParent site.registry site.relations) →
      way.length ≤ maxDepth) :
    let reached := ReflTransGen (IsParent site.registry site.relations) object
    (∃ above, Specifies site.registry site.store.resolve reached above) ∧
    (∀ above, Specifies site.registry site.store.resolve reached above →
      ∃ paths, site.registry.pathsOf object.model = .ok paths ∧
        let specified := .any (.granted object :: alternatives
          (paths.map fun path => .any (above (site.store.resolve object path))))
        site.condition object = .ok specified ∧ ∀ permission user, ∃ explanation,
          site.explain permission object user = .ok explanation ∧
            explanation.condition = specified) ∧
    ∀ room walk other,
      Visits true site.registry site.relations object room walk (some other) →
        other ∉ walk.chain ∧ room ≠ 0 := by
  intro reached
  have acyclic : Acyclic site.store.relations := stored ▸ Memory.run_acyclic acyclic_empty changes
  have passable : Passable site.registry site.relations site.store.resolve object :=
    ⟨follow_stored unpinned, isParent_acyclic unpinned acyclic, known, shallow⟩
  refine ⟨⟨_, specifies_aboveUpTo passable.follows shallow⟩, ?_, ?_⟩
  · -- Solutions may differ elsewhere, but not in what they say of the object.
    intro above specifies
    obtain ⟨paths, declared, built⟩ := ofObject_specified passable specifies
    refine ⟨paths, declared, built, fun permission user => ?_⟩
    obtain ⟨_, read, _⟩ := site.store.contents.site_grantedObjects user permission
    exact ⟨_, explain_of_condition site.store.contents read built, rfl⟩
  · exact fun room walk other visit =>
      ⟨visit.fresh passable.acyclic, visit.room_ne_zero passable.shallow⟩

end Site

namespace Sample

theorem library_leads {child parent : Object} (leads : Leads library.store.relations child parent) :
    child = ⟨document, "d"⟩ ∧ parent = ⟨folder, "f"⟩ := by
  obtain ⟨relation, found⟩ := leads
  have stored : library.store.relations.toList =
      [(⟨⟨document, "d"⟩, "folder"⟩, ⟨folder, "f"⟩)] := by decide +kernel
  have mem := SortedMap.mem_toList_iff.mpr found
  rw [stored, List.mem_singleton] at mem
  cases mem
  exact ⟨rfl, rfl⟩

/-- Paths lead from the document to its folder, and nowhere else. -/
theorem library_parent {child parent : Object}
    (leads : IsParent library.registry library.relations child parent) :
    child = ⟨document, "d"⟩ ∧ parent = ⟨folder, "f"⟩ := by
  obtain ⟨_, _, path, _, led⟩ := leads
  rw [Site.follow_stored rfl] at led
  obtain ⟨next, first, onwards⟩ :=
    TransGen.head'_iff.mp (Memory.leads_of_resolve (Except.ok.inj led))
  obtain ⟨rfl, rfl⟩ := library_leads first
  rcases onwards.cases_head with rfl | ⟨_, second, _⟩
  · exact ⟨rfl, rfl⟩
  · exact absurd (library_leads second).1 (by decide)

end Sample

open Sample in
theorem Site.condition_specified_in_library : library.condition ⟨document, "d"⟩ =
    .ok (.any [.granted ⟨document, "d"⟩, .any [.any [.granted ⟨folder, "f"⟩]]]) := by
  have known : ∀ other, ReflTransGen (IsParent library.registry library.relations)
      ⟨document, "d"⟩ other → library.registry.isRegistered other.model = true := by
    intro other reached
    rcases reached.cases_tail with rfl | ⟨_, _, leads⟩
    · decide +kernel
    · rw [(library_parent leads).2]
      decide +kernel
  have shallow : ∀ way, ((⟨document, "d"⟩ : Object) :: way).IsChain
      (IsParent library.registry library.relations) → way.length ≤ maxDepth := by
    rintro (_ | ⟨first, _ | ⟨second, rest⟩⟩) rises
    · exact Nat.zero_le _
    · exact Nat.le_add_left 1 31
    · obtain ⟨first, rises⟩ := List.isChain_cons_cons.mp rises
      obtain ⟨second, _⟩ := List.isChain_cons_cons.mp rises
      exact absurd ((library_parent first).2.symm.trans (library_parent second).1) (by decide)
  obtain ⟨⟨above, specifies⟩, specified, _⟩ :=
    condition_specified library filing rfl rfl ⟨document, "d"⟩ known shallow
  obtain ⟨paths, declared, built, _⟩ := specified above specifies
  let path : Path := ⟨["folder"], by decide, by decide⟩
  have single : library.registry.pathsOf document = .ok [path] := by decide +kernel
  have led : library.store.resolve ⟨document, "d"⟩ path = some ⟨folder, "f"⟩ := by decide +kernel
  have top : library.registry.pathsOf folder = .ok [] := by decide +kernel
  have leads : IsParent library.registry library.relations ⟨document, "d"⟩ ⟨folder, "f"⟩ :=
    ⟨_, single, path, List.mem_cons_self, by rw [follow_stored rfl, led]⟩
  have parent := specifies.parent ⟨folder, "f"⟩ (.single leads) [] top
  cases declared.symm.trans single
  rw [built, List.map_singleton, led, parent]
  rfl

/-! ### Responses -/

namespace Http

/-- A request on the route of explanations asks for an explanation of a declared permission. -/
theorem Request.operationOn_explain {request : Request} {registry : Registry} {id : Option RoleId}
    {operation : Operation} (read : request.operationOn registry id .explain = .ok operation) :
    ∃ permission target, operation = .explain permission target ∧
      ∃ declared, registry.validate permission = .ok declared := by
  unfold operationOn at read
  split at read
  -- The routes of all other operations are other ones.
  all_goals first | contradiction | skip
  obtain ⟨⟨text, model, key⟩, _, read⟩ := bind_ok read
  obtain ⟨permission, permitted, read⟩ := bind_ok read
  obtain ⟨target, _, read⟩ := bind_ok read
  cases read
  obtain ⟨parsed, _, permitted⟩ := bind_ok permitted
  obtain ⟨declared, validated, same⟩ := bind_ok permitted
  cases same
  exact ⟨permission, target, rfl, declared, mapError_ok validated⟩

end Http

open Http

namespace Site

variable {site : Site Memory}

theorem view_mem_listed_iff {objects : List Object} {grants : SortedSet Object} {object : Object} :
    object.view ∈ (objects.filter grants.contains).map Object.view ↔
      object ∈ objects ∧ object ∈ grants := by
  rw [List.mem_map_of_injective Object.view_injective, List.mem_filter]
  exact Iff.rfl

theorem written_ne_null_iff {access : Option GlobalAccess} :
    Json.ofOption (fun access => .text access.toText) access ≠ .null ↔ access.isSome = true := by
  cases access with
  | none => simp [Json.ofOption]
  | some access => simp [Json.ofOption]

theorem failure_response_status (failure : Failure) : failure.response.status ≠ 200 := by
  unfold Failure.response
  cases failure.report <;> rintro ⟨⟩

theorem refusal_response_status (refusal : Refusal) : refusal.response.status ≠ 200 := by
  cases refusal with
  | failed failure => exact failure_response_status failure
  | _ => rintro ⟨⟩

/-- A response that succeeds on the route of explanations is an explanation for whoever asks, written. -/
theorem respond_explain {header : String} {request : Request} {id : Option RoleId} {body : Json}
    {after : Site Memory} (served : site.respond header request id .explain = (⟨200, some body⟩, after)) :
    ∃ subject permission target explanation, request.subject? header = some subject ∧
      request.operationOn site.registry id .explain = .ok (.explain permission target) ∧
      site.explain permission target (site.overrides.user subject) = .ok explanation ∧
      body = explanation.view := by
  unfold respond at served
  rw [if_neg (by decide)] at served
  cases named : request.subject? header with
  | none =>
    rw [named] at served
    exact absurd (congrArg (·.1.status) served) (failure_response_status _)
  | some subject =>
    cases read : request.operationOn site.registry id .explain with
    | error refusal =>
      simp only [named, read] at served
      exact absurd (congrArg (·.1.status) served) (refusal_response_status refusal)
    | ok operation =>
      obtain ⟨permission, target, rfl, _⟩ := Request.operationOn_explain read
      have performed : perform (site.overrides.user subject) (.explain permission target) site =
          ((site.explain permission target (site.overrides.user subject)).map .explanation, site) := rfl
      simp only [named, read, performed] at served
      cases explained : site.explain permission target (site.overrides.user subject) with
      | error failure =>
        simp only [explained, Except.map] at served
        exact absurd (congrArg (·.1.status) served) (failure_response_status failure)
      | ok explanation =>
        simp only [explained, Except.map] at served
        cases served
        exact ⟨subject, permission, target, explanation, rfl, rfl, explained, rfl⟩

/-- Every explanation that a client gets bears itself out: it says granted exactly if it names access
everywhere, or the permission applies and the written condition holds for the written objects; and these
are the objects written in the condition on which a role of the user has an entry that lists the
permission. -/
theorem explanation_bears_out (site : Site Memory) (header : String) (request : Request)
    (id : Option RoleId) (body : Json) (after : Site Memory)
    (served : site.respond header request id .explain = (⟨200, some body⟩, after)) :
    ∃ subject permission target, request.subject? header = some subject ∧
      request.operationOn site.registry id .explain = .ok (.explain permission target) ∧
      ∃ granted access objects condition,
        body.member? "granted" = some (.bool granted) ∧ body.member? "access_level" = some access ∧
        body.member? "granted_objects" = some (.array objects) ∧
        body.member? "condition" = some condition ∧
        (granted = true ↔ access ≠ .null ∨
          site.registry.applies target.model permission = true ∧ condition.Holds objects) ∧
        ∀ written, written ∈ objects ↔ condition.Mentions written ∧ ∃ object, object.view = written ∧
          site.store.contents.Granted (site.overrides.user subject) permission object := by
  obtain ⟨subject, permission, target, explanation, named, asked, explained, rfl⟩ := respond_explain served
  refine ⟨subject, permission, target, named, asked, ?_⟩
  obtain ⟨condition, built⟩ : ∃ condition, site.condition target = .ok condition := by
    obtain ⟨_, _, explained⟩ := bind_ok explained
    obtain ⟨condition, built, _⟩ := bind_ok explained
    exact ⟨condition, built⟩
  obtain ⟨grants, read, granted_iff⟩ :=
    site.store.contents.site_grantedObjects (site.overrides.user subject) permission
  cases explained.symm.trans (explain_of_condition site.store.contents read built)
  refine ⟨_, _, _, condition.view, rfl, rfl, rfl, rfl, ?decided, fun written => ⟨?listed, ?all⟩⟩
  case decided =>
    have agree : ∀ object ∈ condition.objects, object.view ∈
        (condition.objects.filter grants.contains).map Object.view ↔ object ∈ grants :=
      fun object mem => view_mem_listed_iff.trans (and_iff_right mem)
    rw [written_ne_null_iff, Condition.view_holds_iff condition agree, Bool.or_eq_true,
      Bool.and_eq_true]
  case listed =>
    intro mem
    obtain ⟨object, among, rfl⟩ := List.mem_map.mp mem
    obtain ⟨mentioned, held⟩ := view_mem_listed_iff.mp mem
    exact ⟨condition.view_mentions_iff.mpr ⟨object, mentioned, rfl⟩, object, rfl,
      (granted_iff object).mp held⟩
  case all =>
    rintro ⟨mentions, object, rfl, granted⟩
    obtain ⟨mentioned, among, same⟩ := condition.view_mentions_iff.mp mentions
    rw [Object.view_injective same] at among
    exact view_mem_listed_iff.mpr ⟨among, (granted_iff object).mpr granted⟩

end Site

namespace Sample

/-- The library with its permission declared. -/
def catalogue : Site Memory :=
  { library with registry := { library.registry with labels := .ofList [(view, "View")] } }

/-- Ann asks why she may view the document. -/
def question : Request where
  method := "POST"
  target := "/api/access/explain"
  headers := [("x-subject", "ann"), ("content-type", "application/json")]
  body := some "[\"app.view\", [\"app.document\", \"d\"]]"

end Sample

open Sample in
theorem Site.explanation_bears_out_in_catalogue : ∃ body after,
    catalogue.respond "x-subject" question none .explain = (⟨200, some body⟩, after) ∧
      ∃ objects condition, body.member? "granted_objects" = some (.array objects) ∧
        body.member? "condition" = some condition ∧
        ∀ written ∈ objects, condition.Mentions written := by
  let ran := catalogue.respond "x-subject" question none .explain
  have status : ran.1.status = 200 := by decide +kernel
  have answered : ran.1.body.isSome = true := by decide +kernel
  obtain ⟨body, found⟩ := Option.isSome_iff_exists.mp answered
  have served : ran = (⟨200, some body⟩, ran.2) := by
    rw [← status, ← found]
  obtain ⟨_, _, _, _, _, _, _, objects, condition, _, _, listed, told, _, each⟩ :=
    explanation_bears_out catalogue "x-subject" question none body ran.2 served
  exact ⟨body, ran.2, served, objects, condition, listed, told, fun written mem => ((each written).mp mem).1⟩

end Entitlement
