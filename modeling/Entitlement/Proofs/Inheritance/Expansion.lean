import Entitlement.Proofs.Condition.Evaluation
import Entitlement.Proofs.Inheritance.Witness
import Mathlib.Data.List.Forall2

/-!
# Full expansions

An object unfolds to conditions if following its paths, those of its parents and so on comes to an
end everywhere. `Unfolds.all_holds_iff` says that the conditions then hold exactly if a confirmed
way starts at the object.
-/

namespace Entitlement

/-! ### The conditions of one object -/

open Condition (Expansion Walk)
open Condition.Walk (conditionsOf)

variable {grants : SortedSet Object}

theorem any_branches_hold {expansions : List Expansion} :
    (Condition.any (expansions.map fun expansion => .all expansion.conditions)).holds grants = true ↔
      ∃ expansion ∈ expansions, (Condition.all expansion.conditions).holds grants = true := by
  rw [Condition.any_holds]
  constructor
  · rintro ⟨branch, mem, holds⟩
    obtain ⟨expansion, among, rfl⟩ := List.mem_map.mp mem
    exact ⟨expansion, among, holds⟩
  · rintro ⟨expansion, mem, holds⟩
    exact ⟨_, List.mem_map_of_mem mem, holds⟩

theorem all_conditionsOf_holds {object : Object} {expansions : List Expansion} :
    (Condition.all (conditionsOf object expansions)).holds grants = true ↔
      object ∈ grants ∧ (expansions = [] ∨
        ∃ expansion ∈ expansions, (Condition.all expansion.conditions).holds grants = true) := by
  rw [Condition.all_holds, conditionsOf]
  cases expansions with
  | nil => simp [Condition.holds, SortedSet.mem_iff]
  | cons expansion rest =>
    rw [← any_branches_hold]
    simp [Condition.holds, SortedSet.mem_iff]

theorem any_conditionsOf_holds {object : Object} {expansions : List Expansion} :
    (Condition.any (conditionsOf object expansions)).holds grants = true ↔
      object ∈ grants ∨
        ∃ expansion ∈ expansions, (Condition.all expansion.conditions).holds grants = true := by
  rw [Condition.any_holds, conditionsOf]
  cases expansions with
  | nil => simp [Condition.holds, SortedSet.mem_iff]
  | cons expansion rest =>
    rw [← any_branches_hold]
    simp [Condition.holds, SortedSet.mem_iff]

theorem any_cut_eq_false {paths : List Path} {expansions : List Expansion}
    (uncut : List.Forall₂ (fun _ expansion => expansion.cut = false) paths expansions) :
    expansions.any (·.cut) = false := by
  induction uncut with
  | nil => rfl
  | cons here _ ih => rw [List.any_cons, here, ih, Bool.or_false]

theorem all_unreachable_fails : (Condition.all [.unreachable]).holds grants = false := rfl

/-! ### Unfolding -/

variable (registry : Registry) (relations : Relations)

/-- A path with the object it leads to, if any, and the conditions of that object. -/
structure Branch where
  path : Path
  next : Option Object
  conditions : List Condition

/-- The conditions are those of the object with no path left out and none given up. -/
inductive Unfolds : Option Object → List Condition → Prop
  | unset : Unfolds none [.unreachable]
  | object {object : Object} {branches : List Branch} :
      registry.pathsOf object.model = .ok (branches.map (·.path)) →
      (∀ branch ∈ branches, relations.follow object branch.path.hops = .ok branch.next) →
      (∀ branch ∈ branches, Unfolds branch.next branch.conditions) →
      Unfolds (some object) (conditionsOf object (branches.map fun branch => ⟨branch.conditions, false⟩))

variable {registry relations}

/-- The parents of an object are where its branches lead. -/
theorem isParent_iff_exists_branch {object parent : Object} {branches : List Branch}
    (declared : registry.pathsOf object.model = .ok (branches.map (·.path)))
    (leads : ∀ branch ∈ branches, relations.follow object branch.path.hops = .ok branch.next) :
    IsParent registry relations object parent ↔ ∃ branch ∈ branches, branch.next = some parent := by
  constructor
  · rintro ⟨_, found, path, mem, led⟩
    cases declared.symm.trans found
    obtain ⟨branch, among, rfl⟩ := List.mem_map.mp mem
    exact ⟨branch, among, Except.ok.inj ((leads branch among).symm.trans led)⟩
  · rintro ⟨branch, mem, same⟩
    refine ⟨_, declared, branch.path, List.mem_map_of_mem mem, ?_⟩
    rw [leads branch mem, same]

namespace Unfolds

theorem of_expansions {object : Object} {paths : List Path} {expansions : List Expansion}
    (declared : registry.pathsOf object.model = .ok paths)
    (uncut : expansions.any (·.cut) = false)
    (unfolded : List.Forall₂ (fun path expansion => expansion.cut = false → ∃ next,
      relations.follow object path.hops = .ok next ∧
        Unfolds registry relations next expansion.conditions) paths expansions) :
    Unfolds registry relations (some object) (conditionsOf object expansions) := by
  -- Nothing was cut, so each path has come with a full expansion of where it leads.
  have collect : ∃ branches : List Branch, branches.map (·.path) = paths ∧
      branches.map (·.conditions) = expansions.map (·.conditions) ∧ ∀ branch ∈ branches,
        relations.follow object branch.path.hops = .ok branch.next ∧
          Unfolds registry relations branch.next branch.conditions := by
    clear declared
    induction unfolded with
    | nil => exact ⟨[], rfl, rfl, by simp⟩
    | @cons path expansion _ _ here _ ih =>
      rw [List.any_cons, Bool.or_eq_false_iff] at uncut
      obtain ⟨next, led, unfolds⟩ := here uncut.1
      obtain ⟨branches, samePaths, sameConditions, sound⟩ := ih uncut.2
      refine ⟨⟨path, next, expansion.conditions⟩ :: branches, by simp [samePaths],
        by simp [sameConditions], ?_⟩
      intro branch mem
      rcases List.mem_cons.mp mem with rfl | mem
      · exact ⟨led, unfolds⟩
      · exact sound branch mem
  obtain ⟨branches, samePaths, sameConditions, sound⟩ := collect
  have same : conditionsOf object expansions =
      conditionsOf object (branches.map fun branch => ⟨branch.conditions, false⟩) := by
    have lengths := congrArg List.length sameConditions
    simp only [List.length_map] at lengths
    have mapped := congrArg (List.map Condition.all) sameConditions
    simp only [List.map_map, Function.comp_def] at mapped
    simp only [conditionsOf, List.map_map, Function.comp_def, mapped, List.isEmpty_iff_length_eq_zero,
      List.length_map, lengths]
  rw [same]
  exact .object (by rw [samePaths, declared]) (fun branch mem => (sound branch mem).1)
    fun branch mem => (sound branch mem).2

/-- The conditions hold all exactly if some way from the object is confirmed. -/
theorem all_holds_iff {next : Option Object} {conditions : List Condition}
    (h : Unfolds registry relations next conditions) :
    (Condition.all conditions).holds grants = true ↔ ∃ object rest, next = some object ∧
      Confirmed registry relations (· ∈ grants) (object :: rest) := by
  induction h with
  | unset => simp [all_unreachable_fails]
  | @object object branches declared leads _ ih =>
    rw [all_conditionsOf_holds]
    constructor
    · rintro ⟨held, top | ⟨expansion, mem, holds⟩⟩
      · rw [List.map_eq_nil_iff] at top
        subst top
        exact ⟨object, [], rfl, .topmost held declared⟩
      · obtain ⟨branch, among, rfl⟩ := List.mem_map.mp mem
        obtain ⟨parent, rest, same, confirmed⟩ := (ih branch among).mp holds
        have leadsTo := (isParent_iff_exists_branch declared leads).mpr ⟨branch, among, same⟩
        exact ⟨object, parent :: rest, rfl, .parent held leadsTo confirmed⟩
    · rintro ⟨_, rest, same, confirmed⟩
      obtain rfl := Option.some.inj same
      cases confirmed with
      | topmost held top =>
        rw [IsTopmost, declared] at top
        exact ⟨held, .inl (by simpa using top)⟩
      | @parent _ parent rest held leadsTo confirmed =>
        obtain ⟨branch, mem, same⟩ := (isParent_iff_exists_branch declared leads).mp leadsTo
        exact ⟨held, .inr ⟨_, List.mem_map_of_mem mem, (ih branch mem).mpr ⟨_, _, same, confirmed⟩⟩⟩

/-- One of the conditions holds exactly if the object is granted or some way from a parent of it is
confirmed. -/
theorem any_holds_iff {object : Object} {conditions : List Condition}
    (h : Unfolds registry relations (some object) conditions) :
    (Condition.any conditions).holds grants = true ↔ object ∈ grants ∨ ∃ parent rest,
      IsParent registry relations object parent ∧
        Confirmed registry relations (· ∈ grants) (parent :: rest) := by
  cases h with
  | @object _ branches declared leads unfolds =>
    rw [any_conditionsOf_holds]
    refine or_congr_right ?_
    constructor
    · rintro ⟨expansion, mem, holds⟩
      obtain ⟨branch, among, rfl⟩ := List.mem_map.mp mem
      obtain ⟨parent, rest, same, confirmed⟩ := (unfolds branch among).all_holds_iff.mp holds
      exact ⟨parent, rest, (isParent_iff_exists_branch declared leads).mpr ⟨branch, among, same⟩,
        confirmed⟩
    · rintro ⟨parent, rest, leadsTo, confirmed⟩
      obtain ⟨branch, mem, same⟩ := (isParent_iff_exists_branch declared leads).mp leadsTo
      exact ⟨_, List.mem_map_of_mem mem, (unfolds branch mem).all_holds_iff.mpr ⟨_, _, same, confirmed⟩⟩

end Unfolds

end Entitlement
