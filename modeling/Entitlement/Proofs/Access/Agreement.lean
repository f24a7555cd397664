import Entitlement.Access.Explanation
import Entitlement.Proofs.Access.Restriction

/-!
# Restricting, explaining and checking

`restrict_eq_explain` says that the three ways of asking for a decision give the same one: a
restriction keeps the candidates whose explanation, each on its own, says granted.
-/

namespace Entitlement.Site

variable {σ : Type} [Store σ] {site : Site σ} {permission : Permission} {user : User}

/-- The explanation of the decision on an object for a user with these roles and grants. -/
def explanationOf (site : Site σ) (permission : Permission) (user : User) (roles : List Role)
    (grants : SortedSet Object) (object : Object) : Explanation where
  access := user.globalAccess? roles permission
  condition := site.conditionOf object
  grantedObjects := (site.conditionOf object).objects.filter grants.contains
  granted := (user.globalAccess? roles permission).isSome || site.keeps permission grants object

/-- Where there is a condition there is an explanation, with that condition. -/
theorem explain_of_condition (contents : Contents site.store) {grants : SortedSet Object}
    (read : site.grantedObjects (contents.rolesOf user.subject) permission = .ok grants)
    {object : Object} {condition : Condition} (built : site.condition object = .ok condition) :
    site.explain permission object user = .ok {
      access := user.globalAccess? (contents.rolesOf user.subject) permission
      condition
      grantedObjects := condition.objects.filter grants.contains
      granted := (user.globalAccess? (contents.rolesOf user.subject) permission).isSome ||
        (site.registry.applies object.model permission && condition.holds grants) } := by
  unfold explain
  rw [contents.site_rolesOf, built]
  simp only [bind, Except.bind, read]
  rfl

theorem explain_ok (contents : Contents site.store)
    (grounded : site.relations.Grounded site.registry) {grants : SortedSet Object}
    (read : site.grantedObjects (contents.rolesOf user.subject) permission = .ok grants)
    {object : Object} (known : site.registry.isRegistered object.model = true) :
    site.explain permission object user =
      .ok (site.explanationOf permission user (contents.rolesOf user.subject) grants object) :=
  explain_of_condition contents read (condition_ok grounded known)

theorem restrict_eq_filter (contents : Contents site.store)
    (grounded : site.relations.Grounded site.registry) {grants : SortedSet Object}
    (read : site.grantedObjects (contents.rolesOf user.subject) permission = .ok grants)
    {α : Type} (object : α → Object) (candidates : List α)
    (known : ∀ c ∈ candidates, site.registry.isRegistered (object c).model = true) :
    site.restrict permission object candidates user = .ok (candidates.filter fun c =>
      (site.explanationOf permission user (contents.rolesOf user.subject) grants
        (object c)).granted) := by
  cases everywhere : user.globalAccess? (contents.rolesOf user.subject) permission with
  | some access =>
    rw [restrict_of_global contents everywhere]
    simp [explanationOf, everywhere]
  | none =>
    rw [restrict_ok contents grounded everywhere read object candidates known]
    simp [explanationOf, everywhere]

theorem check_of_restrict {passes : Object → Bool} {object : Object}
    (h : site.restrict permission id [object] user = .ok ([object].filter passes)) :
    site.check permission object user = .ok (passes object) := by
  unfold check
  rw [h, List.filter_singleton]
  cases passes object <;> rfl

/-- Whatever the candidates are, a restriction keeps those whose explanation says granted, and so
answers a check. -/
theorem restrict_eq_explain (contents : Contents site.store)
    (grounded : site.relations.Grounded site.registry) (permission : Permission) (user : User) :
    ∃ explanation : Object → Explanation,
      (∀ object, site.registry.isRegistered object.model = true →
        site.explain permission object user = .ok (explanation object) ∧
        site.check permission object user = .ok (explanation object).granted) ∧
      ∀ {α : Type} (object : α → Object) (candidates : List α),
        (∀ c ∈ candidates, site.registry.isRegistered (object c).model = true) →
        site.restrict permission object candidates user =
          .ok (candidates.filter fun c => (explanation (object c)).granted) := by
  obtain ⟨grants, read, _⟩ := contents.site_grantedObjects user permission
  refine ⟨site.explanationOf permission user (contents.rolesOf user.subject) grants,
    fun object known => ⟨explain_ok contents grounded read known, ?_⟩,
    fun object candidates known => restrict_eq_filter contents grounded read object candidates known⟩
  have alone : ∀ c ∈ [object], site.registry.isRegistered (id c).model = true := by
    intro c mem
    rw [List.mem_singleton.mp mem]
    exact known
  exact check_of_restrict (restrict_eq_filter contents grounded read id [object] alone)

open Sample in
/-- The document "e" is in no folder. -/
theorem restrict_eq_explain_in_library :
    let candidates : List Object :=
      [⟨document, "d"⟩, ⟨document, "e"⟩, ⟨folder, "f"⟩, ⟨document, "d"⟩]
    ∃ explanation : Object → Explanation,
      (∀ object ∈ candidates, library.explain view object ann = .ok (explanation object) ∧
        library.check view object ann = .ok (explanation object).granted) ∧
      library.restrict view id candidates ann =
        .ok (candidates.filter fun object => (explanation object).granted) ∧
      (∀ object ∈ candidates, (explanation object).granted = (object.key != "e")) ∧
      library.restrict view id candidates ann =
        .ok [⟨document, "d"⟩, ⟨folder, "f"⟩, ⟨document, "d"⟩] := by
  intro candidates
  obtain ⟨explanation, decided, kept⟩ :=
    restrict_eq_explain library.store.contents library_grounded view ann
  have known : ∀ object ∈ candidates, library.registry.isRegistered object.model = true := by
    decide +kernel
  have answers : ∀ object ∈ candidates, library.check view object ann = .ok (object.key != "e") := by
    decide +kernel
  refine ⟨explanation, fun object mem => decided object (known object mem), kept id candidates known,
    fun object mem => ?_, by decide +kernel⟩
  have checked := (decided object (known object mem)).2
  exact Except.ok.inj (checked.symm.trans (answers object mem))

end Entitlement.Site
