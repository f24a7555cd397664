import Entitlement.Proofs.Store.Relations

/-!
# The search for ancestors

Before a relation is set, a store in memory searches its relations for a way from the parent to the
child. `Memory.reaches_exact` says that the search ends, and that its answer is exact.
-/

namespace Entitlement

open Relation (ReflTransGen TransGen)

namespace Memory

/-- In whatever order the relations are visited, and cycles or not, the search comes to an answer after at
most one round more than there are relations. Each run of it answers whether the goal is the start or to be
had from it over relations of any name. -/
theorem reaches_exact (m : Memory) (start goal : Object) {visited : List (Object × Object)}
    (order : visited.Perm m.links) :
    (reaches visited start goal = true ↔
      goal = start ∨ TransGen (Leads m.relations) start goal) ∧
    (∀ run, (⟨[], [start]⟩ :: run).IsChain (Search.Round visited goal) →
      run.length ≤ m.relations.toList.length + 1) ∧
    ∀ last, ReflTransGen (Search.Round visited goal) ⟨[], [start]⟩ last →
      (last.answer? goal = none ↔ ∃ next, Search.Round visited goal last next) ∧
      ∀ answer, last.answer? goal = some answer → answer = reaches visited start goal := by
  refine ⟨?_, fun run rounds => ?_, fun last rounds => ⟨Search.answer?_eq_none_iff, ?_⟩⟩
  · have same : (fun child parent => (child, parent) ∈ visited) = Leads m.relations := by
      funext child parent
      exact propext (order.mem_iff.trans mem_links_iff)
    rw [reaches_iff, same]
    exact Relation.reflTransGen_iff_eq_or_transGen
  · have bound : run.length ≤ (unexpanded visited []).length + 1 := Search.length_le_of_rounds rounds
    have fewer : (unexpanded visited []).length ≤ visited.length := List.length_filter_le _ _
    have listed : visited.length = m.relations.toList.length := by
      rw [order.length_eq, links, List.length_map]
    omega
  · exact fun answer given => Search.answer_of_rounds rounds given

end Memory

namespace Sample

def knot (key : String) : Object := ⟨⟨"rope", "knot", by decide, by decide⟩, key⟩

/-- The knots a and b lead to each other, and b leads to c under another name. -/
def ring : Memory where
  relations := .ofList [
    (⟨knot "a", "next"⟩, knot "b"), (⟨knot "b", "next"⟩, knot "a"), (⟨knot "b", "side"⟩, knot "c")]

end Sample

open Sample in
theorem Memory.reaches_exact_in_ring :
    ring.links.reverse.Perm ring.links ∧
    (knot "c" = knot "a" ∨ TransGen (Leads ring.relations) (knot "a") (knot "c")) ∧
    ∀ run, (⟨[], [knot "a"]⟩ :: run).IsChain (Search.Round ring.links.reverse (knot "c")) →
      run.length ≤ 4 := by
  have order : ring.links.reverse.Perm ring.links := List.reverse_perm _
  obtain ⟨exact_iff, bounded, _⟩ := ring.reaches_exact (knot "a") (knot "c") order
  exact ⟨order, exact_iff.mp (by decide +kernel), bounded⟩

end Entitlement
