import Entitlement.Proofs.Registry.Proxies

/-!
# What a registry lists

A registry lists the models that something is registered for, and the proxies whatever these stand for. A
proxy itself counts as registered only if something is registered for its base
(`listed_models_registered`).
-/

namespace Entitlement

namespace Registry

variable {r : Registry} {model base : Model}

theorem mem_models_iff : model ∈ r.models ↔ ¬ r.Bare model ∨ ∃ base, r.proxies.get? model = some base := by
  unfold models Bare
  simp only [SortedSet.mem_ofList, List.mem_append, SortedMap.mem_keys_iff, not_and_or,
    ← Option.ne_none_iff_exists']

theorem isRegistered_iff_not_bare : r.isRegistered model = true ↔ ¬ r.Bare (r.base model) := by
  unfold isRegistered Bare SortedMap.contains
  cases r.applicable.get? (r.base model) <;> cases r.inheritance.get? (r.base model) <;> simp

theorem isRegistered_of_applies {permission : Permission} (applies : r.applies model permission = true) :
    r.isRegistered model = true := by
  obtain ⟨known, found, -⟩ := mem_permissionsOf_iff.mp (SortedSet.mem_iff.mpr applies)
  rw [isRegistered_iff_not_bare]
  rintro ⟨none, -⟩
  rw [none] at found
  cases found

theorem listed_iff : model ∈ r.models ↔
    r.isRegistered model = true ∨ ∃ base, r.proxies.get? model = some base := by
  rw [mem_models_iff, isRegistered_iff_not_bare]
  cases stands : r.proxies.get? model with
  | none => rw [base_of_own stands]
  | some base => simp

theorem proxy_isRegistered_iff (stands : r.proxies.get? model = some base) :
    r.isRegistered model = true ↔ ¬ r.Bare base := by
  rw [isRegistered_iff_not_bare, base_of_proxy stands]

/-- After any run of declarations, a model is registered exactly if its paths can be read, and it is
listed exactly if it is registered or a declaration of the run made it a proxy. A proxy of a model that
is none itself is registered exactly if a declaration registered something for that model. -/
theorem listed_models_registered (declarations : List Declaration) (model : Model) :
    ((declareAll ∅ declarations).isRegistered model = true ↔
      ∃ paths, (declareAll ∅ declarations).pathsOf model = .ok paths) ∧
    (model ∈ (declareAll ∅ declarations).models ↔ (declareAll ∅ declarations).isRegistered model = true ∨
      ∃ base, Adopts declarations (.standFor model base)) ∧
    (∀ base, (declareAll ∅ declarations).proxies.get? model = some base →
      (∀ further, ¬ Adopts declarations (.standFor base further)) →
      ((declareAll ∅ declarations).isRegistered model = true ↔
        (∃ permissions, Adopts declarations (.register base permissions)) ∨
          ∃ relation, Adopts declarations (.inherit base relation))) ∧
    (∀ permission, (declareAll ∅ declarations).applies model permission = true →
      model ∈ (declareAll ∅ declarations).models) := by
  refine ⟨isRegistered_iff, ?_, fun base stands _ => ?_, fun permission applies => ?_⟩
  · rw [listed_iff, isProxy_iff]
  · rw [proxy_isRegistered_iff stands, not_bare_iff]
  · exact listed_iff.mpr (.inl (isRegistered_of_applies applies))

end Registry

/-! ### Two proxies -/

namespace Registry

open Sample

theorem listed_models_registered_when_shelved :
    (declareAll ∅ shelved).proxies.get? binder = some shelf ∧
      (declareAll ∅ shelved).isRegistered binder = true ∧
      (declareAll ∅ shelved).applies binder borrow = true ∧ binder ∈ (declareAll ∅ shelved).models := by
  have stands : (declareAll ∅ shelved).proxies.get? binder = some shelf := by decide +kernel
  have applies : (declareAll ∅ shelved).applies binder borrow = true := by decide +kernel
  have direct : ∀ further, ¬ Adopts shelved (.standFor shelf further) := by
    intro further adopted
    obtain ⟨base, found⟩ := isProxy_iff.mpr ⟨further, adopted⟩
    rw [show (declareAll ∅ shelved).proxies.get? shelf = none by decide +kernel] at found
    cases found
  have registered : Adopts shelved (.inherit shelf "room") :=
    ⟨.standFor binder shelf :: (lending shelf).dropLast, [], declareAll ∅ shelved, rfl, by decide +kernel⟩
  obtain ⟨-, -, proxy, listed⟩ := listed_models_registered shelved binder
  exact ⟨stands, (proxy shelf stands direct).mpr (.inr ⟨"room", registered⟩), applies, listed borrow applies⟩

/-- A binder that stands for a shelf nothing is registered for is listed all the same. -/
theorem dangling_proxy_listed :
    binder ∈ (declareAll ∅ [.standFor binder shelf]).models ∧
      (declareAll ∅ [.standFor binder shelf]).isRegistered binder = false ∧
      (declareAll ∅ [.standFor binder shelf]).pathsOf binder = .error (.unknownModel shelf) :=
  ⟨by decide +kernel, by decide +kernel, by rfl⟩

end Registry

end Entitlement
