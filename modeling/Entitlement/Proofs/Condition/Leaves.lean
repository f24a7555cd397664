import Entitlement.Proofs.Condition.Evaluation

/-!
# The leaves of a condition

`grantedAt?` reads a condition at a place, which says which branch to take at each node from the root.
The objects that a condition mentions are its granted leaves in the order of their places
(`exists_places`), and on them alone it depends, without a negation (`positive_and_local`).
-/

namespace Entitlement.Condition

/-- The branches right below the root. -/
def branches : Condition → List Condition
  | .granted _ => []
  | .unreachable => []
  | .any branches => branches
  | .all branches => branches

/-- The object that is to be granted at a place, if there is a leaf for one. -/
def grantedAt? : Condition → List Nat → Option Object
  | .granted object, [] => some object
  | _, [] => none
  | condition, i :: place => condition.branches[i]?.bind fun branch => branch.grantedAt? place

/-- What there is at a place below some branches. -/
def grantedBelow? (branches : List Condition) : List Nat → Option Object
  | [] => none
  | i :: place => branches[i]?.bind fun branch => branch.grantedAt? place

theorem grantedAt?_unreachable : unreachable.grantedAt? = fun _ => none := by
  funext place
  cases place <;> rfl

theorem grantedAt?_any (branches : List Condition) :
    (any branches).grantedAt? = grantedBelow? branches := by
  funext place
  cases place <;> rfl

theorem grantedAt?_all (branches : List Condition) :
    (all branches).grantedAt? = grantedBelow? branches := by
  funext place
  cases place <;> rfl

theorem grantedBelow?_nil : grantedBelow? [] = fun _ => none := by
  funext place
  cases place <;> rfl

/-- The places are all those with an object, from left to right, and the objects are those there. -/
structure Enumerates (at? : List Nat → Option Object) (places : List (List Nat))
    (objects : List Object) : Prop where
  ascending : places.Pairwise (· < ·)
  mem_iff : ∀ place, place ∈ places ↔ (at? place).isSome = true
  objects : places.map at? = objects.map some

theorem enumerates_nil : Enumerates (fun _ => none) [] [] where
  ascending := .nil
  mem_iff place := by simp
  objects := rfl

/-! ### One branch more on the left -/

/-- The same place after one branch more on the left. -/
def shift : List Nat → List Nat
  | [] => []
  | i :: place => (i + 1) :: place

variable {branch : Condition} {rest : List Condition}

theorem grantedBelow?_shift (place : List Nat) :
    grantedBelow? (branch :: rest) (shift place) = grantedBelow? rest place := by
  cases place <;> rfl

theorem shift_lt_shift {place place' : List Nat} (less : place < place') (filled : place ≠ []) :
    shift place < shift place' := by
  cases place with
  | nil => exact absurd rfl filled
  | cons i place =>
    cases place' with
    | nil => cases less
    | cons j place' =>
      rw [List.cons_lt_cons_iff] at less
      rw [shift, shift, List.cons_lt_cons_iff]
      exact less.imp Nat.succ_lt_succ fun same => ⟨congrArg (· + 1) same.1, same.2⟩

theorem Enumerates.cons {places later : List (List Nat)} {objects others : List Object}
    (first : Enumerates branch.grantedAt? places objects)
    (onwards : Enumerates (grantedBelow? rest) later others) :
    Enumerates (grantedBelow? (branch :: rest)) (places.map (0 :: ·) ++ later.map shift)
      (objects ++ others) := by
  have filled : ∀ place ∈ later, place ≠ [] := by
    rintro _ mem rfl
    cases (onwards.mem_iff []).mp mem
  constructor
  · rw [List.pairwise_append, List.pairwise_map, List.pairwise_map]
    refine ⟨first.ascending.imp fun less => ?_, ?_, ?_⟩
    · exact List.cons_lt_cons_iff.mpr (.inr ⟨rfl, less⟩)
    · exact onwards.ascending.imp_of_mem fun mem _ less => shift_lt_shift less (filled _ mem)
    · intro place mem place' mem'
      obtain ⟨_, _, rfl⟩ := List.mem_map.mp mem
      obtain ⟨_ | ⟨i, _⟩, among, rfl⟩ := List.mem_map.mp mem'
      · exact absurd rfl (filled _ among)
      · exact List.cons_lt_cons_iff.mpr (.inl (Nat.succ_pos i))
  · intro place
    rw [List.mem_append, List.mem_map, List.mem_map]
    constructor
    · rintro (⟨below, mem, rfl⟩ | ⟨below, mem, rfl⟩)
      · exact (first.mem_iff below).mp mem
      · rw [grantedBelow?_shift]
        exact (onwards.mem_iff below).mp mem
    · intro found
      match place, found with
      | 0 :: below, found => exact .inl ⟨below, (first.mem_iff below).mpr found, rfl⟩
      | (i + 1) :: below, found =>
        exact .inr ⟨i :: below, (onwards.mem_iff (i :: below)).mpr found, rfl⟩
  · have shifted : later.map (grantedBelow? (branch :: rest) ∘ shift) = later.map (grantedBelow? rest) :=
      List.map_congr_left fun place _ => grantedBelow?_shift place
    rw [List.map_append, List.map_append, List.map_map, List.map_map, shifted, onwards.objects,
      ← first.objects]
    rfl

/-! ### All leaves -/

mutual

theorem exists_places : (condition : Condition) →
    ∃ places, Enumerates condition.grantedAt? places condition.objects
  | .granted object => by
    refine ⟨[[]], .cons (fun _ mem => by cases mem) .nil, fun place => ?_, rfl⟩
    cases place <;> simp [grantedAt?, branches]
  | .unreachable => ⟨[], grantedAt?_unreachable ▸ enumerates_nil⟩
  | .any branches => by
    rw [grantedAt?_any, objects]
    exact exists_places_each branches
  | .all branches => by
    rw [grantedAt?_all, objects]
    exact exists_places_each branches

theorem exists_places_each : (branches : List Condition) →
    ∃ places, Enumerates (grantedBelow? branches) places (objectsOf branches)
  | [] => ⟨[], grantedBelow?_nil ▸ enumerates_nil⟩
  | branch :: rest => by
    obtain ⟨places, first⟩ := exists_places branch
    obtain ⟨later, onwards⟩ := exists_places_each rest
    exact ⟨_, first.cons onwards⟩

end

/-- No condition holds without grants, more grants never hurt, and those on objects it does not mention
make no difference. The objects it mentions are its granted leaves from left to right, each as often as
it stands there. -/
theorem positive_and_local (condition : Condition) :
    condition.holds ∅ = false ∧
    (∀ G H : SortedSet Object, (∀ object, object ∈ G → object ∈ H) →
      condition.holds G = true → condition.holds H = true) ∧
    (∀ G : SortedSet Object,
      condition.holds G = condition.holds (G.filter (· ∈ condition.objects))) ∧
    ∃ places : List (List Nat), places.Pairwise (· < ·) ∧
      (∀ place, place ∈ places ↔ ∃ object, condition.grantedAt? place = some object) ∧
      places.map condition.grantedAt? = condition.objects.map some := by
  refine ⟨holds_empty condition, fun G H more => holds_mono more condition, fun G => ?_, ?_⟩
  · refine holds_congr condition fun object mem => Bool.eq_iff_iff.mpr ?_
    rw [← SortedSet.mem_iff, ← SortedSet.mem_iff, SortedSet.mem_filter]
    simp [mem]
  · obtain ⟨places, enumerates⟩ := exists_places condition
    refine ⟨places, enumerates.ascending, fun place => ?_, enumerates.objects⟩
    rw [enumerates.mem_iff, Option.isSome_iff_exists]

end Entitlement.Condition
