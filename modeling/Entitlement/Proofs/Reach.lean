import Entitlement.Reach
import Mathlib.Data.List.Chain
import Mathlib.Logic.Relation

/-!
# Exactness of the search

`reaches_iff` says that the search over a list of links finds the goal exactly if the links lead there,
in whatever order they are listed. `Search.Round` is one round of the search: `Search.length_le_of_rounds`
bounds their number, and `Search.answer_of_rounds` says that the answer is always that of `reaches`.
-/

namespace Entitlement

open Relation (ReflTransGen)

/-! ### Ways cut short -/

section Ways

variable {α : Type} {r : α → α → Prop} {a b c : α}

/-- A way is left where it sets out from a node for the last time. -/
theorem reflTransGen_after_last (way : ReflTransGen r a b) (c : α) :
    ReflTransGen (fun x y => r x y ∧ x ≠ c) a b ∨
      ∃ next, r c next ∧ ReflTransGen (fun x y => r x y ∧ x ≠ c) next b := by
  induction way using ReflTransGen.head_induction_on with
  | refl => exact .inl .refl
  | @head x y step _ ih =>
    rcases ih with avoids | found
    · by_cases same : x = c
      · rw [same] at step
        exact .inr ⟨y, step, avoids⟩
      · exact .inl (.head ⟨step, same⟩ avoids)
    · exact .inr found

/-- A way is left where it comes to its goal for the first time. -/
theorem reflTransGen_until_first (way : ReflTransGen r a b) :
    ReflTransGen (fun x y => r x y ∧ x ≠ b) a b := by
  induction way using ReflTransGen.head_induction_on with
  | refl => exact .refl
  | @head x y step _ ih =>
    by_cases same : x = b
    · rw [same]
    · exact .head ⟨step, same⟩ ih

end Ways

/-! ### The search -/

variable {ν : Type} {links : List (ν × ν)} {goal node : ν} {expanded : List ν}

/-- A link is open if it leads from a node that the search has not expanded. -/
def Open (links : List (ν × ν)) (expanded : List ν) (first second : ν) : Prop :=
  (first, second) ∈ links ∧ first ∉ expanded

theorem open_cons_iff {first second : ν} :
    Open links (node :: expanded) first second ↔ Open links expanded first second ∧ first ≠ node := by
  rw [Open, Open, List.mem_cons, not_or, and_assoc]
  exact and_congr_right fun _ => and_comm

/-- From an expanded node no open link leads on. -/
theorem eq_of_expanded (mem : node ∈ expanded) (way : ReflTransGen (Open links expanded) node goal) :
    node = goal := by
  rcases way.cases_head with same | ⟨next, step, _⟩
  · exact same
  · exact absurd mem step.2

/-- Leaving out an expanded node loses no way to the goal. -/
theorem exists_open_known_iff (known : node ∈ expanded) (other : node ≠ goal) (rest : List ν) :
    (∃ start ∈ rest, ReflTransGen (Open links expanded) start goal) ↔
      ∃ start ∈ node :: rest, ReflTransGen (Open links expanded) start goal := by
  constructor
  · rintro ⟨start, mem, way⟩
    exact ⟨start, List.mem_cons_of_mem _ mem, way⟩
  · rintro ⟨start, mem, way⟩
    rcases List.mem_cons.mp mem with rfl | mem
    · exact absurd (eq_of_expanded known way) other
    · exact ⟨start, mem, way⟩

variable [DecidableEq ν]

theorem mem_successors {next : ν} : next ∈ successors links node ↔ (node, next) ∈ links := by
  rw [successors, List.mem_map]
  constructor
  · rintro ⟨⟨first, second⟩, mem, rfl⟩
    obtain ⟨mem, same⟩ := List.mem_filter.mp mem
    have : first = node := beq_iff_eq.mp same
    rw [← this]
    exact mem
  · intro mem
    exact ⟨(node, next), List.mem_filter.mpr ⟨mem, beq_self_eq_true node⟩, rfl⟩

/-- Expanding a node loses no way to the goal: what it takes away begins at one of its successors. -/
theorem exists_open_cons_iff (fresh : node ∉ expanded) (other : node ≠ goal) (rest : List ν) :
    (∃ start ∈ successors links node ++ rest, ReflTransGen (Open links (node :: expanded)) start goal) ↔
      ∃ start ∈ node :: rest, ReflTransGen (Open links expanded) start goal := by
  have weaken : Open links (node :: expanded) ≤ Open links expanded :=
    fun _ _ step => (open_cons_iff.mp step).1
  have strengthen : (fun x y => Open links expanded x y ∧ x ≠ node) ≤ Open links (node :: expanded) :=
    fun _ _ step => open_cons_iff.mpr step
  constructor
  · rintro ⟨start, mem, way⟩
    have way := ReflTransGen.mono weaken _ _ way
    rcases List.mem_append.mp mem with next | mem
    · exact ⟨node, List.mem_cons_self, .head ⟨mem_successors.mp next, fresh⟩ way⟩
    · exact ⟨start, List.mem_cons_of_mem _ mem, way⟩
  · rintro ⟨start, mem, way⟩
    rcases reflTransGen_after_last way node with avoids | ⟨next, step, avoids⟩
    · have avoids := ReflTransGen.mono strengthen _ _ avoids
      rcases List.mem_cons.mp mem with rfl | mem
      · exact absurd (eq_of_expanded List.mem_cons_self avoids) other
      · exact ⟨start, List.mem_append_right _ mem, avoids⟩
    · exact ⟨next, List.mem_append_left _ (mem_successors.mpr step.1),
        ReflTransGen.mono strengthen _ _ avoids⟩

theorem search_iff (pending : List ν) :
    search links goal expanded pending = true ↔
      ∃ start ∈ pending, ReflTransGen (Open links expanded) start goal := by
  induction expanded, pending using search.induct links goal with
  | case1 expanded => simp [search]
  | case2 expanded rest =>
    rw [search, if_pos rfl]
    exact iff_of_true rfl ⟨goal, List.mem_cons_self, .refl⟩
  | case3 expanded node rest other known ih =>
    rw [search, if_neg other, if_pos known, ih]
    exact exists_open_known_iff known other rest
  | case4 expanded node rest other fresh ih =>
    rw [search, if_neg other, if_neg fresh, ih]
    exact exists_open_cons_iff fresh other rest

theorem reaches_iff {start : ν} :
    reaches links start goal = true ↔
      ReflTransGen (fun first second => (first, second) ∈ links) start goal := by
  have same : Open links [] = fun first second => (first, second) ∈ links := by
    funext first second
    simp [Open]
  rw [reaches, search_iff, same]
  simp

/-! ### Round by round -/

/-- Where a search stands: the nodes that it has expanded, and those still to be looked at. -/
structure Search (ν : Type) where
  expanded : List ν
  pending : List ν

namespace Search

/-- One round of a search takes the next pending node away. If the node is new, its successors come in its
place, in any order. -/
inductive Round (links : List (ν × ν)) (goal : ν) : Search ν → Search ν → Prop
  | known {expanded rest : List ν} {node : ν} : node ≠ goal → node ∈ expanded →
      Round links goal ⟨expanded, node :: rest⟩ ⟨expanded, rest⟩
  | fresh {expanded rest next : List ν} {node : ν} : node ≠ goal → node ∉ expanded →
      next.Perm (successors links node) →
      Round links goal ⟨expanded, node :: rest⟩ ⟨node :: expanded, next ++ rest⟩

/-- The answer of a search that has come to its end. -/
def answer? (goal : ν) : Search ν → Option Bool
  | ⟨_, []⟩ => some false
  | ⟨_, node :: _⟩ => if node = goal then some true else none

/-- At most so many rounds are left. -/
def roundsLeft (links : List (ν × ν)) (s : Search ν) : Nat :=
  (unexpanded links s.expanded).length + s.pending.length

/-- The goal is pending or to be had from a pending node without those expanded. -/
def Finds (links : List (ν × ν)) (goal : ν) (s : Search ν) : Prop :=
  ∃ start ∈ s.pending, ReflTransGen (Open links s.expanded) start goal

variable {s last : Search ν}

theorem Round.roundsLeft_lt (round : Round links goal s last) :
    last.roundsLeft links < s.roundsLeft links := by
  cases round with
  | known _ _ =>
    simp only [roundsLeft, List.length_cons]
    omega
  | fresh _ unknown listed =>
    have opened := length_unexpanded_cons links unknown
    have same := listed.length_eq
    simp only [roundsLeft, List.length_cons, List.length_append]
    omega

/-- A round loses no way to the goal and finds no new one. -/
theorem Round.finds_iff (round : Round links goal s last) :
    last.Finds links goal ↔ s.Finds links goal := by
  cases round with
  | @known expanded rest node other before => exact exists_open_known_iff before other rest
  | @fresh expanded rest next node other unknown listed =>
    refine Iff.trans ?_ (exists_open_cons_iff unknown other rest)
    unfold Finds
    simp only [List.mem_append, listed.mem_iff]

theorem finds_of_rounds (rounds : ReflTransGen (Round links goal) s last) :
    last.Finds links goal ↔ s.Finds links goal := by
  induction rounds with
  | refl => exact Iff.rfl
  | tail _ round ih => exact round.finds_iff.trans ih

theorem answer?_eq_none_iff : s.answer? goal = none ↔ ∃ next, Round links goal s next := by
  obtain ⟨expanded, _ | ⟨node, rest⟩⟩ := s
  · refine iff_of_false (Option.some_ne_none false) ?_
    rintro ⟨_, round⟩
    cases round
  · by_cases same : node = goal
    · refine iff_of_false (by simp [answer?, same]) ?_
      rintro ⟨_, round⟩
      cases round with
      | known other _ => exact other same
      | fresh other _ _ => exact other same
    · refine iff_of_true (by simp [answer?, same]) ?_
      by_cases known : node ∈ expanded
      · exact ⟨_, .known same known⟩
      · exact ⟨_, .fresh same known (.refl _)⟩

theorem finds_of_answer? {answer : Bool} (given : s.answer? goal = some answer) :
    answer = true ↔ s.Finds links goal := by
  obtain ⟨expanded, _ | ⟨node, rest⟩⟩ := s
  · cases given
    simp [Finds]
  · rw [answer?] at given
    split at given
    · rename_i same
      cases given
      exact iff_of_true rfl ⟨node, List.mem_cons_self, same ▸ .refl⟩
    · cases given

theorem length_le_of_rounds {run : List (Search ν)}
    (rounds : (s :: run).IsChain (Round links goal)) : run.length ≤ s.roundsLeft links := by
  induction run generalizing s with
  | nil => exact Nat.zero_le _
  | cons next run ih =>
    obtain ⟨round, rounds⟩ := List.isChain_cons_cons.mp rounds
    exact Nat.lt_of_le_of_lt (ih rounds) round.roundsLeft_lt

theorem answer_of_rounds {start : ν} {answer : Bool}
    (rounds : ReflTransGen (Round links goal) ⟨[], [start]⟩ last)
    (given : last.answer? goal = some answer) : answer = reaches links start goal := by
  rw [Bool.eq_iff_iff, finds_of_answer? given, finds_of_rounds rounds, reaches, search_iff]
  rfl

end Search

end Entitlement
