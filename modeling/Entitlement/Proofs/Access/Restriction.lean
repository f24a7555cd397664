import Entitlement.Proofs.Access.Contents
import Entitlement.Proofs.Inheritance.Depth

/-!
# Which candidates are kept

`restrict_ok` reduces a restriction to a test of each candidate on its own, and
`restrict_keeps_witnessed` says what passes: only what has a witness, and whatever has one of at most
`maxDepth` paths.
-/

namespace Entitlement.Site

open Condition (ofObject_holds_iff)

variable {σ : Type} [Store σ] {site : Site σ} {permission : Permission} {user : User}

/-! ### One object -/

/-- The condition on an object, if it can be built. -/
def conditionOf (site : Site σ) (object : Object) : Condition :=
  (site.condition object).toOption.getD .unreachable

omit [Store σ] in
theorem requireRegistered_ok {object : Object}
    (known : site.registry.isRegistered object.model = true) :
    site.requireRegistered object = .ok () := by
  unfold requireRegistered
  rw [if_pos known]

omit [Store σ] in
theorem isRegistered_of_required {object : Object} (known : site.requireRegistered object = .ok ()) :
    site.registry.isRegistered object.model = true := by
  unfold requireRegistered at known
  split at known
  · rename_i registered
    exact registered
  · cases known

theorem condition_ok (grounded : site.relations.Grounded site.registry) {object : Object}
    (known : site.registry.isRegistered object.model = true) :
    site.condition object = .ok (site.conditionOf object) := by
  obtain ⟨condition, built, _⟩ := ofObject_holds_iff grounded known
  unfold conditionOf Site.condition
  rw [built]
  rfl

theorem conditionOf_holds_iff (grounded : site.relations.Grounded site.registry) {object : Object}
    (known : site.registry.isRegistered object.model = true) (grants : SortedSet Object) :
    (site.conditionOf object).holds grants = true ↔
      WithinDepth site.registry site.relations (· ∈ grants) object ∨
        ThroughNotes site.registry site.relations (· ∈ grants) object := by
  obtain ⟨condition, built, holds_iff⟩ := ofObject_holds_iff grounded known
  have same : condition = site.conditionOf object :=
    Except.ok.inj (built.symm.trans (condition_ok grounded known))
  rw [← same]
  exact holds_iff grants

/-- The decision on an object when the user holds the permission nowhere but on these objects. -/
def keeps (site : Site σ) (permission : Permission) (grants : SortedSet Object) (object : Object) :
    Bool :=
  site.registry.applies object.model permission && (site.conditionOf object).holds grants

theorem admits_ok (grounded : site.relations.Grounded site.registry) {object : Object}
    (known : site.registry.isRegistered object.model = true) (grants : SortedSet Object) :
    site.admits permission grants object = .ok (site.keeps permission grants object) := by
  unfold admits keeps
  rw [requireRegistered_ok known, condition_ok grounded known]
  cases applies : site.registry.applies object.model permission with
  | false => simp [bind, Except.bind, pure, Except.pure]
  | true =>
    cases none : grants.isEmpty with
    | true =>
      rw [Condition.holds_of_isEmpty _ none]
      rfl
    | false => rfl

/-! ### Sites with the same relations -/

section Congr

variable {site other : Site Memory}

theorem relations_congr (pinned : other.pinned = site.pinned)
    (stored : other.store.relations = site.store.relations) : other.relations = site.relations := by
  funext object relation
  unfold relations
  simp only [Store.related, pinned, stored]

theorem condition_congr (registry : other.registry = site.registry)
    (same : other.relations = site.relations) (object : Object) :
    other.condition object = site.condition object := by
  unfold condition
  rw [registry, same]

theorem conditionOf_congr (registry : other.registry = site.registry)
    (same : other.relations = site.relations) (object : Object) :
    other.conditionOf object = site.conditionOf object := by
  unfold conditionOf
  rw [condition_congr registry same]

end Congr

/-! ### Candidates -/

theorem keepPassing_ok {α : Type} {test : α → Except Failure Bool} {passes : α → Bool}
    {candidates : List α} (h : ∀ candidate ∈ candidates, test candidate = .ok (passes candidate)) :
    keepPassing test candidates = .ok (candidates.filter passes) := by
  induction candidates with
  | nil => rfl
  | cons candidate rest ih =>
    have first := h candidate List.mem_cons_self
    have others := ih fun later mem => h later (List.mem_cons_of_mem _ mem)
    simp only [keepPassing, first, others, bind, Except.bind, List.filter_cons]
    cases passes candidate <;> rfl

theorem keepPassing_inv {α : Type} {test : α → Except Failure Bool} {candidates kept : List α}
    (ran : keepPassing test candidates = .ok kept) :
    kept.Sublist candidates ∧ ∀ c ∈ candidates, ∃ passes, test c = .ok passes := by
  induction candidates generalizing kept with
  | nil =>
    cases ran
    exact ⟨.slnil, fun c mem => absurd mem List.not_mem_nil⟩
  | cons candidate rest ih =>
    obtain ⟨passes, first, ran⟩ := bind_ok ran
    obtain ⟨others, later, ran⟩ := bind_ok ran
    obtain ⟨sub, tested⟩ := ih later
    refine ⟨?_, List.forall_mem_cons.mpr ⟨⟨passes, first⟩, tested⟩⟩
    cases passes with
    | false =>
      cases ran
      exact sub.cons candidate
    | true =>
      cases ran
      exact sub.cons_cons candidate

theorem restrict_of_global (contents : Contents site.store) {access : GlobalAccess}
    (everywhere : user.globalAccess? (contents.rolesOf user.subject) permission = some access)
    {α : Type} (object : α → Object) (candidates : List α) :
    site.restrict permission object candidates user = .ok candidates := by
  unfold restrict
  rw [contents.site_rolesOf]
  simp only [bind, Except.bind, everywhere]
  rfl

theorem restrict_ok (contents : Contents site.store)
    (grounded : site.relations.Grounded site.registry)
    (ordinary : user.globalAccess? (contents.rolesOf user.subject) permission = none)
    {grants : SortedSet Object}
    (read : site.grantedObjects (contents.rolesOf user.subject) permission = .ok grants)
    {α : Type} (object : α → Object) (candidates : List α)
    (known : ∀ c ∈ candidates, site.registry.isRegistered (object c).model = true) :
    site.restrict permission object candidates user =
      .ok (candidates.filter fun c => site.keeps permission grants (object c)) := by
  unfold restrict
  rw [contents.site_rolesOf]
  simp only [bind, Except.bind, ordinary, read]
  exact keepPassing_ok fun c mem => admits_ok grounded (known c mem) grants

/-- A restriction that succeeds picks from the candidates, and has looked their models up unless the user
has access everywhere. -/
theorem restrict_inv (contents : Contents site.store) {α : Type} {object : α → Object}
    {candidates kept : List α} (ran : site.restrict permission object candidates user = .ok kept) :
    kept.Sublist candidates ∧
      (user.globalAccess? (contents.rolesOf user.subject) permission = none →
        ∀ c ∈ candidates, site.registry.isRegistered (object c).model = true) := by
  obtain ⟨roles, read, ran⟩ := bind_ok ran
  cases (contents.site_rolesOf user).symm.trans read
  cases access : user.globalAccess? (contents.rolesOf user.subject) permission with
  | some everywhere =>
    rw [access] at ran
    cases ran
    exact ⟨.refl _, fun ordinary => by cases ordinary⟩
  | none =>
    rw [access] at ran
    obtain ⟨grants, _, ran⟩ := bind_ok ran
    obtain ⟨sub, tested⟩ := keepPassing_inv ran
    refine ⟨sub, fun _ c mem => ?_⟩
    obtain ⟨passes, admitted⟩ := tested c mem
    obtain ⟨_, known, _⟩ := bind_ok admitted
    exact isRegistered_of_required known

theorem keeps_iff (contents : Contents site.store)
    (grounded : site.relations.Grounded site.registry) {grants : SortedSet Object}
    (granted : ∀ object, object ∈ grants ↔ contents.Granted user permission object) {object : Object}
    (known : site.registry.isRegistered object.model = true) :
    site.keeps permission grants object = true ↔
      site.registry.applies object.model permission = true ∧
        (WithinDepth site.registry site.relations (contents.Granted user permission) object ∨
          ThroughNotes site.registry site.relations (contents.Granted user permission) object) := by
  have same : (· ∈ grants) = contents.Granted user permission :=
    funext fun object => propext (granted object)
  rw [keeps, Bool.and_eq_true, conditionOf_holds_iff grounded known, same]

/-- Without access everywhere, a restriction tests each candidate on its own. What passes has a
witness, and what has a witness of at most `maxDepth` paths passes, if the permission applies. -/
theorem restrict_keeps_witnessed (contents : Contents site.store)
    (grounded : site.relations.Grounded site.registry)
    (ordinary : user.globalAccess? (contents.rolesOf user.subject) permission = none) :
    ∃ passes : Object → Bool,
      (∀ {α : Type} (object : α → Object) (candidates : List α),
        (∀ c ∈ candidates, site.registry.isRegistered (object c).model = true) →
        site.restrict permission object candidates user =
          .ok (candidates.filter fun c => passes (object c))) ∧
      ∀ object, site.registry.isRegistered object.model = true →
        (passes object = true → site.registry.applies object.model permission = true ∧
          ∃ way, Witness site.registry site.relations (contents.Granted user permission) object way) ∧
        (site.registry.applies object.model permission = true →
          ∀ way, Witness site.registry site.relations (contents.Granted user permission) object way →
            way.length ≤ maxDepth → passes object = true) := by
  obtain ⟨grants, read, granted⟩ := contents.site_grantedObjects user permission
  refine ⟨site.keeps permission grants, fun object candidates known =>
    restrict_ok contents grounded ordinary read object candidates known, fun object known => ?_⟩
  have iff := keeps_iff contents grounded granted known
  constructor
  · intro passes
    obtain ⟨applies, ⟨way, witness, _⟩ | ⟨way, witness, _⟩⟩ := iff.mp passes
    · exact ⟨applies, way, witness⟩
    · exact ⟨applies, way, witness⟩
  · intro applies way witness short
    exact iff.mpr ⟨applies, .inl ⟨way, witness, short⟩⟩

open Sample in
theorem restrict_keeps_witnessed_in_library :
    library.restrict view id [⟨document, "d"⟩, ⟨document, "d"⟩] ann =
      .ok [⟨document, "d"⟩, ⟨document, "d"⟩] := by
  obtain ⟨passes, kept, sound⟩ := restrict_keeps_witnessed library.store.contents library_grounded
    (show ann.globalAccess? (library.store.rolesOf "ann") view = none by decide +kernel)
  have held : library.store.contents.Granted ann view ⟨folder, "f"⟩ :=
    ⟨⟨reader, "reader", ∅, .ofList ["staff"]⟩, by decide +kernel,
      ⟨.numbered 1, ⟨folder, "f"⟩, reader, .ofList [view]⟩, by decide +kernel, rfl, rfl, by decide +kernel⟩
  have leads : IsParent library.registry library.relations ⟨document, "d"⟩ ⟨folder, "f"⟩ :=
    ⟨[⟨["folder"], by decide, by decide⟩], by decide +kernel, _, List.mem_cons_self, by decide +kernel⟩
  have known : library.registry.isRegistered document = true := by decide +kernel
  have applies : library.registry.applies document view = true := by decide +kernel
  have passes_d : passes ⟨document, "d"⟩ = true :=
    (sound ⟨document, "d"⟩ known).2 applies _ (.parent leads held) (by decide)
  rw [kept id _ (by simp [known])]
  simp [passes_d]

end Entitlement.Site
