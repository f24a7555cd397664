import Entitlement.Proofs.Condition.Evaluation
import Entitlement.Proofs.Naming.Written
import Entitlement.View
import Mathlib.Data.List.Basic
import Mathlib.Tactic.MkIffOfInductiveProp

/-!
# Conditions as clients read them

`Json.Holds` evaluates a written condition for a list of written objects, and `Json.Mentions` tells which
objects stand in it; neither knows of anything but JSON. They say the same as the condition that was
written (`Condition.view_holds_iff`, `Condition.view_mentions_iff`).
-/

namespace Entitlement

/-! ### Reading a written condition -/

namespace Json

/-- The member of an object under a name. -/
def member? (name : String) : Json → Option Json
  | .object members => members.lookup name
  | _ => none

@[simp]
theorem member?_cons (name key : String) (value : Json) (rest : List (String × Json)) :
    (Json.object ((key, value) :: rest)).member? name =
      if name = key then some value else (Json.object rest).member? name := by
  rw [member?, List.lookup_cons]
  by_cases same : name = key
  · simp [same]
  · simp [same, member?, beq_eq_false_iff_ne.mpr same]

@[simp]
theorem member?_nil (name : String) : (Json.object []).member? name = none := rfl

/-- The condition written at a node holds if these objects are granted. -/
@[mk_iff]
inductive Holds (listed : List Json) : Json → Prop
  | granted {node object : Json} : node.member? "kind" = some (.text "granted") →
      node.member? "object" = some object → object ∈ listed → Holds listed node
  | any {node branch : Json} {branches : List Json} : node.member? "kind" = some (.text "any") →
      node.member? "branches" = some (.array branches) → branch ∈ branches → Holds listed branch →
      Holds listed node
  | all {node : Json} {branches : List Json} : node.member? "kind" = some (.text "all") →
      node.member? "branches" = some (.array branches) → branches ≠ [] →
      (∀ branch ∈ branches, Holds listed branch) → Holds listed node

/-- An object stands somewhere in the condition written at a node. -/
@[mk_iff]
inductive Mentions : (node object : Json) → Prop
  | itself {node object : Json} : node.member? "object" = some object → Mentions node object
  | within {node branch object : Json} {branches : List Json} :
      node.member? "branches" = some (.array branches) → branch ∈ branches → Mentions branch object →
      Mentions node object

end Json

theorem Object.view_injective : Function.Injective Object.view := by
  rintro ⟨model, key⟩ ⟨model', key'⟩ same
  simp only [Object.view, Json.object.injEq, List.cons.injEq, Prod.mk.injEq, Json.text.injEq, true_and,
    and_true] at same
  rw [Model.toText_injective same.1, same.2]

namespace Condition

variable {listed : List Json} {grants : SortedSet Object} {written : Json} {branches : List Condition}

theorem viewBranches_eq_map (branches : List Condition) :
    viewBranches branches = branches.map view := by
  induction branches with
  | nil => rfl
  | cons branch rest ih => rw [viewBranches, ih, List.map_cons]

/-! ### Node by node -/

theorem granted_view_holds {object : Object} :
    (granted object).view.Holds listed ↔ object.view ∈ listed := by
  rw [Json.holds_iff]
  simp [view]

theorem unreachable_view_fails : ¬ unreachable.view.Holds listed := by
  rw [Json.holds_iff]
  simp [view]

theorem any_view_holds :
    (any branches).view.Holds listed ↔ ∃ branch ∈ branches, branch.view.Holds listed := by
  rw [Json.holds_iff]
  simp [view, viewBranches_eq_map]

theorem all_view_holds :
    (all branches).view.Holds listed ↔
      branches ≠ [] ∧ ∀ branch ∈ branches, branch.view.Holds listed := by
  rw [Json.holds_iff]
  simp [view, viewBranches_eq_map]

theorem granted_view_mentions {object : Object} :
    (granted object).view.Mentions written ↔ object.view = written := by
  rw [Json.mentions_iff]
  simp [view]

theorem unreachable_view_mentions : ¬ unreachable.view.Mentions written := by
  rw [Json.mentions_iff]
  simp [view]

theorem any_view_mentions :
    (any branches).view.Mentions written ↔ ∃ branch ∈ branches, branch.view.Mentions written := by
  rw [Json.mentions_iff]
  simp [view, viewBranches_eq_map]

theorem all_view_mentions :
    (all branches).view.Mentions written ↔ ∃ branch ∈ branches, branch.view.Mentions written := by
  rw [Json.mentions_iff]
  simp [view, viewBranches_eq_map]

/-! ### The whole condition -/

mutual

/-- A condition written holds for written objects as the condition does for a set that has the same of the
objects it mentions. -/
theorem view_holds_iff : (condition : Condition) →
    (∀ object ∈ condition.objects, object.view ∈ listed ↔ object ∈ grants) →
      (condition.view.Holds listed ↔ condition.holds grants = true)
  | .granted object, agree => granted_view_holds.trans (agree object List.mem_cons_self)
  | .unreachable, _ => iff_of_false unreachable_view_fails Bool.false_ne_true
  | .any branches, agree => by
    rw [any_view_holds, any_holds]
    exact exists_congr fun branch => and_congr_right (view_holds_each branches agree branch)
  | .all branches, agree => by
    rw [all_view_holds, all_holds]
    exact and_congr_right' (forall₂_congr (view_holds_each branches agree))

theorem view_holds_each : (branches : List Condition) →
    (∀ object ∈ objectsOf branches, object.view ∈ listed ↔ object ∈ grants) →
      ∀ branch ∈ branches, (branch.view.Holds listed ↔ branch.holds grants = true)
  | [], _ => List.forall_mem_nil _
  | first :: rest, agree => List.forall_mem_cons.mpr
    ⟨view_holds_iff first fun object mem => agree object (List.mem_append_left _ mem),
      view_holds_each rest fun object mem => agree object (List.mem_append_right _ mem)⟩

end

mutual

/-- The objects that stand in a written condition are those it mentions, written. -/
theorem view_mentions_iff : (condition : Condition) →
    (condition.view.Mentions written ↔ ∃ object ∈ condition.objects, object.view = written)
  | .granted object => by
    rw [granted_view_mentions, objects]
    simp
  | .unreachable => by
    rw [objects]
    simp [unreachable_view_mentions]
  | .any branches => any_view_mentions.trans (view_mentions_each branches)
  | .all branches => all_view_mentions.trans (view_mentions_each branches)

theorem view_mentions_each : (branches : List Condition) →
    ((∃ branch ∈ branches, branch.view.Mentions written) ↔
      ∃ object ∈ objectsOf branches, object.view = written)
  | [] => by simp [objectsOf]
  | first :: rest => by
    rw [List.exists_mem_cons_iff, view_mentions_iff first, view_mentions_each rest, objectsOf]
    simp only [List.mem_append, or_and_right, exists_or]

end

end Condition

end Entitlement
