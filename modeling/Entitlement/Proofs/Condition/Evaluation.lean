import Entitlement.Condition

/-!
# Evaluating conditions

`holds_congr` says that a condition asks for nothing but the objects that it mentions,
`holds_of_isEmpty` that no condition holds without grants, and `holds_mono` that more grants never
hurt.
-/

namespace Entitlement.Condition

variable {G H : SortedSet Object}

theorem any_holds (branches : List Condition) :
    (any branches).holds G = true ↔ ∃ branch ∈ branches, branch.holds G = true := by
  rw [holds, anyHolds_eq_any, List.any_eq_true]

theorem all_holds (branches : List Condition) :
    (all branches).holds G = true ↔
      branches ≠ [] ∧ ∀ branch ∈ branches, branch.holds G = true := by
  rw [holds, allHold_eq_all, Bool.and_eq_true, List.all_eq_true]
  simp

/-! ### The objects that matter -/

mutual

/-- A condition holds alike for sets that agree on the objects it mentions. -/
theorem holds_congr : (condition : Condition) →
    (∀ object ∈ condition.objects, G.contains object = H.contains object) →
      condition.holds G = condition.holds H
  | .granted object, agree => agree object List.mem_cons_self
  | .unreachable, _ => rfl
  | .any branches, agree => by
    rw [holds, holds]
    exact (holds_congr_each branches agree).1
  | .all branches, agree => by
    rw [holds, holds, (holds_congr_each branches agree).2]

theorem holds_congr_each : (branches : List Condition) →
    (∀ object ∈ objectsOf branches, G.contains object = H.contains object) →
      anyHolds G branches = anyHolds H branches ∧ allHold G branches = allHold H branches
  | [], _ => ⟨rfl, rfl⟩
  | branch :: rest, agree => by
    have first := holds_congr branch fun object mem => agree object (List.mem_append_left _ mem)
    have others := holds_congr_each rest fun object mem => agree object (List.mem_append_right _ mem)
    simp only [anyHolds, allHold, first, others.1, others.2, and_self]

end

mutual

theorem holds_empty : (condition : Condition) → condition.holds ∅ = false
  | .granted _ => rfl
  | .unreachable => rfl
  | .any branches => by
    rw [holds]
    exact (holds_empty_each branches).1
  | .all [] => rfl
  | .all (branch :: rest) => by
    rw [holds]
    exact (holds_empty_each (branch :: rest)).2 (List.cons_ne_nil _ _)

theorem holds_empty_each : (branches : List Condition) →
    anyHolds ∅ branches = false ∧ (branches ≠ [] → allHold ∅ branches = false)
  | [] => ⟨rfl, fun filled => absurd rfl filled⟩
  | branch :: rest => by
    have first := holds_empty branch
    simp only [anyHolds, allHold, first, (holds_empty_each rest).1, Bool.or_self, Bool.false_and,
      implies_true, and_self]

end

/-- Without grants no condition holds. -/
theorem holds_of_isEmpty (condition : Condition) (none : G.isEmpty = true) :
    condition.holds G = false := by
  have empty : G = ∅ := by
    apply SortedSet.ext
    intro object
    exact iff_of_false (SortedSet.isEmpty_iff.mp none object) (SortedSet.not_mem_empty object)
  rw [empty]
  exact holds_empty condition

/-! ### More grants -/

mutual

/-- A condition that holds goes on holding when more is granted. -/
theorem holds_mono (more : ∀ object, object ∈ G → object ∈ H) : (condition : Condition) →
    condition.holds G = true → condition.holds H = true
  | .granted object, held => more object held
  | .unreachable, held => held
  | .any branches, held => by
    rw [holds] at held ⊢
    exact (holds_mono_each more branches).1 held
  | .all branches, held => by
    rw [holds, Bool.and_eq_true] at held ⊢
    exact ⟨held.1, (holds_mono_each more branches).2 held.2⟩

theorem holds_mono_each (more : ∀ object, object ∈ G → object ∈ H) : (branches : List Condition) →
    (anyHolds G branches = true → anyHolds H branches = true) ∧
      (allHold G branches = true → allHold H branches = true)
  | [] => ⟨id, id⟩
  | branch :: rest => by
    have first := holds_mono more branch
    obtain ⟨some, every⟩ := holds_mono_each more rest
    constructor
    · intro held
      rw [anyHolds, Bool.or_eq_true] at held ⊢
      exact held.imp first some
    · intro held
      rw [allHold, Bool.and_eq_true] at held ⊢
      exact held.imp first every

end

end Entitlement.Condition
