import Entitlement.Proofs.Registry.Declarations

/-!
# Models that stand for others

A proxy shares what is registered for its base, and what is read of a model follows one step from proxy
to base. That is enough as long as the base is no proxy itself. A declaration may make it one later on:
then the proxy shows nothing at all, whatever its base shows (`proxy_shares_iff`).
-/

namespace Entitlement

namespace Registry

variable {r : Registry} {declarations : List Declaration} {proxy base model : Model}

/-! ### What is read of a model -/

theorem base_of_proxy (stands : r.proxies.get? proxy = some base) : r.base proxy = base := by
  rw [Registry.base, stands]
  rfl

theorem base_of_own (own : r.proxies.get? model = none) : r.base model = model := by
  rw [Registry.base, own]
  rfl

theorem mem_permissionsOf_iff {permission : Permission} : permission ∈ r.permissionsOf model ↔
    ∃ known, r.applicable.get? (r.base model) = some known ∧ permission ∈ known := by
  unfold permissionsOf
  cases r.applicable.get? (r.base model) with
  | none => simp [SortedSet.not_mem_empty]
  | some known => simp

theorem pathsOf_ok_iff {paths : List Path} : r.pathsOf model = .ok paths ↔
    r.inheritance.get? (r.base model) = some paths ∨ r.inheritance.get? (r.base model) = none ∧
      (∃ known, r.applicable.get? (r.base model) = some known) ∧ paths = [] := by
  unfold pathsOf SortedMap.contains
  cases r.inheritance.get? (r.base model) <;> cases r.applicable.get? (r.base model) <;>
    simp [eq_comm]

theorem pathsOf_cases (r : Registry) (model : Model) :
    (∃ paths, r.pathsOf model = .ok paths) ∨ r.pathsOf model = .error (.unknownModel (r.base model)) := by
  unfold pathsOf
  split
  · exact .inl ⟨_, rfl⟩
  · split
    · exact .inl ⟨[], rfl⟩
    · exact .inr rfl

theorem isRegistered_iff : r.isRegistered model = true ↔ ∃ paths, r.pathsOf model = .ok paths := by
  unfold isRegistered pathsOf SortedMap.contains
  cases r.inheritance.get? (r.base model) <;> cases r.applicable.get? (r.base model) <;> simp

/-- Whatever may be read of the proxy is what is read of its base, which stands for no other model. -/
structure Shares (r : Registry) (proxy base : Model) : Prop where
  direct : r.proxies.get? base = none
  permissions : r.permissionsOf proxy = r.permissionsOf base
  paths : (∃ paths, r.pathsOf proxy = .ok paths ∧ r.pathsOf base = .ok paths) ∨
    ∃ unknown unknown', r.pathsOf proxy = .error (.unknownModel unknown) ∧
      r.pathsOf base = .error (.unknownModel unknown')
  registered : r.isRegistered proxy = r.isRegistered base
  applies : ∀ permission, r.applies proxy permission = r.applies base permission

/-- Nothing is to be read of the model. -/
structure ShowsNothing (r : Registry) (model : Model) : Prop where
  permissions : r.permissionsOf model = ∅
  paths : r.pathsOf model = .error (.unknownModel (r.base model))
  registered : r.isRegistered model = false
  applies : ∀ permission, r.applies model permission = false

theorem shares_of_direct (stands : r.proxies.get? proxy = some base)
    (direct : r.proxies.get? base = none) : r.Shares proxy base := by
  have same : r.base proxy = r.base base := by rw [base_of_proxy stands, base_of_own direct]
  have permissions : r.permissionsOf proxy = r.permissionsOf base := by
    rw [permissionsOf, permissionsOf, same]
  have paths : r.pathsOf proxy = r.pathsOf base := by rw [pathsOf, pathsOf, same]
  refine ⟨direct, permissions, ?_, ?_, fun permission => ?_⟩
  · rcases pathsOf_cases r base with ⟨found, read⟩ | unknown
    · exact .inl ⟨found, paths.trans read, read⟩
    · exact .inr ⟨_, _, paths.trans unknown, unknown⟩
  · rw [isRegistered, isRegistered, same]
  · rw [Registry.applies, Registry.applies, permissions]

theorem showsNothing_of_bare (bare : r.Bare (r.base model)) : r.ShowsNothing model := by
  obtain ⟨applicable, inheritance⟩ := bare
  have permissions : r.permissionsOf model = ∅ := by
    rw [permissionsOf, applicable]
    rfl
  refine ⟨permissions, ?_, ?_, fun permission => ?_⟩
  · simp [pathsOf, inheritance, SortedMap.contains, applicable]
  · simp [isRegistered, inheritance, SortedMap.contains, applicable]
  · rw [Registry.applies, permissions]
    rfl

/-! ### What declarations make of proxies -/

theorem ne_of_own (stands : r.proxies.get? proxy = some base) (own : r.proxies.get? model = none) :
    proxy ≠ model := by
  rintro rfl
  rw [own] at stands
  cases stands

/-- Nothing is registered for a proxy itself. -/
def ProxiesBare (r : Registry) : Prop :=
  ∀ proxy base, r.proxies.get? proxy = some base → r.Bare proxy

theorem Takes.proxiesBare {r' : Registry} {declaration : Declaration}
    (takes : r.Takes declaration r') (bare : r.ProxiesBare) : r'.ProxiesBare := by
  intro proxy base stands
  cases takes with
  | space | permission => exact bare proxy base stands
  | register _ own =>
    obtain ⟨applicable, inheritance⟩ := bare proxy base stands
    refine ⟨?_, inheritance⟩
    rw [SortedMap.get?_insert_of_ne _ (ne_of_own stands own), applicable]
  | inherit _ own =>
    obtain ⟨applicable, inheritance⟩ := bare proxy base stands
    refine ⟨applicable, ?_⟩
    rw [SortedMap.get?_insert_of_ne _ (ne_of_own stands own), inheritance]
  | standFor _ _ bare' =>
    exact SortedMap.forall_insert (P := fun proxy _ => r.Bare proxy) bare'
      (fun proxy base stands _ => bare proxy base stands) proxy base stands

theorem declareAll_proxiesBare (declarations : List Declaration) :
    (declareAll ∅ declarations).ProxiesBare := by
  refine declareAll_induct ?_ (fun _ _ _ bare takes => takes.proxiesBare bare) declarations
  intro proxy base stands
  cases stands

/-- After any run of declarations, a proxy shares what its base has exactly if no declaration of the run
made the base a proxy. Otherwise nothing is to be read of the proxy. -/
theorem proxy_shares_iff (stands : (declareAll ∅ declarations).proxies.get? proxy = some base) :
    ((declareAll ∅ declarations).Shares proxy base ↔
      ∀ further, ¬ Adopts declarations (.standFor base further)) ∧
    ((∃ further, Adopts declarations (.standFor base further)) →
      (declareAll ∅ declarations).ShowsNothing proxy) := by
  refine ⟨⟨fun shares further adopted => ?_, fun never => ?_⟩, fun adopted => ?_⟩
  · obtain ⟨_, chained⟩ := isProxy_iff.mpr ⟨further, adopted⟩
    rw [shares.direct] at chained
    cases chained
  · refine shares_of_direct stands ?_
    cases chained : (declareAll ∅ declarations).proxies.get? base with
    | none => rfl
    | some further =>
      obtain ⟨further, adopted⟩ := isProxy_iff.mp ⟨further, chained⟩
      exact absurd adopted (never further)
  · obtain ⟨further, chained⟩ := isProxy_iff.mpr adopted
    apply showsNothing_of_bare
    rw [base_of_proxy stands]
    exact declareAll_proxiesBare declarations base further chained

end Registry

/-! ### Two runs -/

namespace Sample

def cabinet : Model := ⟨"loans", "cabinet", by decide, by decide⟩

def shelf : Model := ⟨"loans", "shelf", by decide, by decide⟩

def binder : Model := ⟨"loans", "binder", by decide, by decide⟩

def borrow : Permission := ⟨"loans", "borrow", by decide, by decide⟩

/-- Declares what may be done with a model. -/
def lending (model : Model) : List Registry.Declaration := [
  .space "loans" "Loans",
  .permission ⟨"loans", "Loans"⟩ "borrow" "Borrow",
  .register model [borrow],
  .inherit model "room"]

/-- A binder stands for a shelf before anything is registered for the shelf. -/
def shelved : List Registry.Declaration := .standFor binder shelf :: lending shelf

/-- A binder stands for a shelf, and the shelf for a cabinet. -/
def chained : List Registry.Declaration :=
  .standFor binder shelf :: .standFor shelf cabinet :: lending cabinet

end Sample

namespace Registry

open Sample

theorem proxy_shares_when_shelved :
    (declareAll ∅ shelved).proxies.get? binder = some shelf ∧
      (declareAll ∅ shelved).Shares binder shelf ∧
      (declareAll ∅ shelved).permissionsOf binder = .ofList [borrow] := by
  have stands : (declareAll ∅ shelved).proxies.get? binder = some shelf := by decide +kernel
  have direct : (declareAll ∅ shelved).proxies.get? shelf = none := by decide +kernel
  have never : ∀ further, ¬ Adopts shelved (.standFor shelf further) := by
    intro further adopted
    obtain ⟨base, found⟩ := isProxy_iff.mpr ⟨further, adopted⟩
    rw [direct] at found
    cases found
  exact ⟨stands, (proxy_shares_iff stands).1.mpr never, by decide +kernel⟩

/-- Every declaration of the run is taken, and the binder shows nothing of what the shelf shows. -/
theorem proxy_of_proxy_unshared :
    (declareAll ∅ chained).proxies.get? binder = some shelf ∧
      (declareAll ∅ chained).proxies.get? shelf = some cabinet ∧
      (declareAll ∅ chained).permissionsOf binder = ∅ ∧
      (declareAll ∅ chained).permissionsOf shelf = .ofList [borrow] ∧
      (declareAll ∅ chained).isRegistered binder = false ∧
      (declareAll ∅ chained).isRegistered shelf = true ∧
      ¬ (declareAll ∅ chained).Shares binder shelf := by
  have shown : (declareAll ∅ chained).permissionsOf binder ≠ (declareAll ∅ chained).permissionsOf shelf := by
    decide +kernel
  exact ⟨by decide +kernel, by decide +kernel, by decide +kernel, by decide +kernel, by decide +kernel,
    by decide +kernel, fun shares => shown shares.permissions⟩

end Registry

end Entitlement
