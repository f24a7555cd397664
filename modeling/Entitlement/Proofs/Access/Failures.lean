import Entitlement.Http.Exchange
import Entitlement.Proofs.Administration.Integrity

/-!
# When a restriction fails

Relations that clients set lead between objects of registered models, so that every condition can be
built, whatever they lead to. A restriction then fails for its candidates alone: for the first one of a
model of which nothing is registered (`Site.restrict_fails_iff`).
-/

namespace Entitlement.Site

/-! ### Candidates of unknown models -/

section Candidates

variable {σ α : Type} [Store σ] {site : Site σ} {permission : Permission} {user : User}
  {object : α → Object} {candidates : List α} {failure : Failure}

/-- Where a test fails exactly for some of the candidates, the first one of these decides. -/
theorem keepPassing_error_iff {test : α → Except Failure Bool} {fails : α → Bool} {reason : α → Failure}
    (failing : ∀ c, fails c = true → test c = .error (reason c))
    (passing : ∀ c, fails c = false → ∃ passes, test c = .ok passes) :
    keepPassing test candidates = .error failure ↔
      ∃ c, candidates.find? fails = some c ∧ failure = reason c := by
  induction candidates with
  | nil => exact iff_of_false (fun ran => by cases ran) (fun ⟨c, found, _⟩ => by cases found)
  | cons candidate rest ih =>
    unfold keepPassing
    cases fate : fails candidate with
    | true =>
      rw [failing candidate fate, List.find?_cons_of_pos fate]
      constructor
      · intro ran
        cases ran
        exact ⟨candidate, rfl, rfl⟩
      · rintro ⟨_, found, rfl⟩
        cases found
        rfl
    | false =>
      obtain ⟨passes, tested⟩ := passing candidate fate
      rw [tested, List.find?_cons_of_neg (by simp [fate]), ← ih]
      cases keepPassing test rest with
      | error later => exact Iff.rfl
      | ok kept => exact iff_of_false (fun ran => by cases ran) (fun ran => by cases ran)

theorem admits_of_unknown {grants : SortedSet Object} {candidate : Object}
    (unknown : site.registry.isRegistered candidate.model = false) :
    site.admits permission grants candidate = .error (.unknownModel candidate.model) := by
  unfold admits requireRegistered
  rw [unknown]
  rfl

/-- A restriction that does not find access everywhere fails exactly for a candidate of an unknown
model. -/
theorem restrict_error_iff (contents : Contents site.store)
    (grounded : site.relations.Grounded site.registry) :
    site.restrict permission object candidates user = .error failure ↔
      user.globalAccess? (contents.rolesOf user.subject) permission = none ∧
        ∃ c, candidates.find? (fun c => ! site.registry.isRegistered (object c).model) = some c ∧
          failure = .unknownModel (object c).model := by
  cases access : user.globalAccess? (contents.rolesOf user.subject) permission with
  | some everywhere =>
    rw [restrict_of_global contents access]
    exact iff_of_false (fun ran => by cases ran) (fun ⟨ordinary, _⟩ => by cases ordinary)
  | none =>
    obtain ⟨grants, read, _⟩ := contents.site_grantedObjects user permission
    have tested : site.restrict permission object candidates user =
        keepPassing (fun c => site.admits permission grants (object c)) candidates := by
      unfold restrict
      rw [contents.site_rolesOf]
      simp only [bind, Except.bind, access, read]
    rw [tested, and_iff_right rfl]
    apply keepPassing_error_iff
    · intro c unknown
      exact admits_of_unknown (by simpa using unknown)
    · intro c known
      exact ⟨_, admits_ok grounded (by simpa using known) grants⟩

end Candidates

/-! ### What clients can bring about -/

open Http (Request)

/-- The site after some requests, whatever the responses to them were; an identifier is for a role that
the request creates. -/
def afterRequests (header : String) (site : Site Memory)
    (requests : List (Request × Option RoleId)) : Site Memory :=
  requests.foldl (fun site request => (serve header request.1 request.2 site).2) site

/-- A request has the effect of one operation, or none. -/
theorem serve_did (header : String) (site : Site Memory) (request : Request) (id : Option RoleId) :
    (serve header request id site).2 = site ∨ ∃ actor operation,
      (serve header request id site).2 = site.afterCall (.perform actor operation) := by
  unfold serve
  cases Http.Route.ofPath? request.path with
  | none => exact .inl rfl
  | some route =>
    dsimp only
    unfold respond
    split
    · split <;> exact .inl rfl
    split
    · exact .inl rfl
    split
    · exact .inl rfl
    · rename_i subject _ _ operation _
      refine .inr ⟨site.overrides.user subject, operation, ?_⟩
      split <;> rename_i ran <;> exact (congrArg Prod.snd ran).symm

theorem afterRequests_eq (header : String) (site : Site Memory)
    (requests : List (Request × Option RoleId)) :
    ∃ calls, site.afterRequests header requests = site.afterCalls calls := by
  unfold afterRequests
  induction requests generalizing site with
  | nil => exact ⟨[], rfl⟩
  | cons request rest ih =>
    rw [List.foldl_cons]
    rcases serve_did header site request.1 request.2 with idle | ⟨actor, operation, did⟩
    · rw [idle]
      exact ih site
    · obtain ⟨calls, others⟩ := ih (site.afterCall (.perform actor operation))
      rw [did, others]
      exact ⟨.perform actor operation :: calls, rfl⟩

/-- Whatever clients have requested of a site where nothing was stored, a restriction fails exactly for a
user who does not hold the permission everywhere and a candidate of a model of which nothing is
registered, and then names the model of the first such candidate. -/
theorem restrict_fails_iff (registry : Registry) (overrides : Overrides) (header : String)
    (requests : List (Request × Option RoleId)) (permission : Permission) (user : User) {α : Type}
    (object : α → Object) (candidates : List α) (failure : Failure) :
    let site := (blank registry overrides).afterRequests header requests
    site.restrict permission object candidates user = .error failure ↔
      ¬ site.HoldsEverywhere user permission ∧
        ∃ c, candidates.find? (fun c => ! registry.isRegistered (object c).model) = some c ∧
          failure = .unknownModel (object c).model := by
  intro site
  obtain ⟨calls, same⟩ : ∃ calls, site = (blank registry overrides).afterCalls calls :=
    afterRequests_eq header _ requests
  obtain ⟨known, _, grounded⟩ := afterCalls_blank registry overrides calls
  rw [← same] at known grounded
  rw [← known] at grounded
  rw [restrict_error_iff site.store.contents grounded, known]
  exact and_congr_left fun _ => globalAccess?_eq_none_iff

open Sample in
example : library.restrict view id [⟨document, "d"⟩, ⟨roleModel, "r"⟩, ⟨document, "e"⟩] ann =
    .error (.unknownModel roleModel) := by
  decide +kernel

end Entitlement.Site
