/-!
# Reachability

`reaches links start goal` searches a finite list of links for a way from one node to another. The
search keeps the nodes that it has expanded and the nodes still to be looked at; each step takes one
of the latter away or moves the links of one node from unexpanded to pending.
-/

namespace Entitlement

variable {ν : Type} [DecidableEq ν]

def successors (links : List (ν × ν)) (node : ν) : List ν :=
  (links.filter (·.1 == node)).map (·.2)

/-- Links whose first node has not been expanded. -/
def unexpanded (links : List (ν × ν)) (expanded : List ν) : List (ν × ν) :=
  links.filter fun link => link.1 ∉ expanded

/-- Expanding a new node takes its own links out of the unexpanded ones. -/
theorem length_unexpanded_cons (links : List (ν × ν)) {expanded : List ν} {node : ν}
    (fresh : node ∉ expanded) :
    (unexpanded links (node :: expanded)).length + (successors links node).length =
      (unexpanded links expanded).length := by
  induction links with
  | nil => rfl
  | cons link rest ih =>
    simp only [unexpanded, successors, List.length_map, List.mem_cons] at ih ⊢
    by_cases same : link.1 = node
    · have out : link.1 ∉ expanded := same ▸ fresh
      simp only [List.filter_cons, same, true_or, not_true_eq_false, decide_false,
        Bool.false_eq_true, if_false, beq_self_eq_true, if_true, List.length_cons, fresh,
        not_false_eq_true, decide_true]
      omega
    · by_cases out : link.1 ∈ expanded
      · simpa [List.filter_cons, same, out] using ih
      · simp only [List.filter_cons, same, out, or_self, not_false_eq_true, decide_true, if_true,
          List.length_cons, beq_iff_eq, if_false]
        omega

/-- Searches on from the pending nodes, without expanding a node twice. -/
def search (links : List (ν × ν)) (goal : ν) (expanded : List ν) : List ν → Bool
  | [] => false
  | node :: rest =>
    if node = goal then true
    else if node ∈ expanded then search links goal expanded rest
    else search links goal (node :: expanded) (successors links node ++ rest)
termination_by pending => (unexpanded links expanded).length + pending.length
decreasing_by
  · simp only [List.length_cons]
    omega
  · rename_i fresh
    have := length_unexpanded_cons links fresh
    simp only [List.length_append, List.length_cons]
    omega

/-- Whether the goal is the start or can be had from it over links. -/
def reaches (links : List (ν × ν)) (start goal : ν) : Bool := search links goal [] [start]

end Entitlement
