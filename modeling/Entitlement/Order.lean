/-!
# Orders field by field

Structures are ordered by their fields in turn. `lawful_lex` lifts the law that only equal values
compare equal from the fields to the structure. `sortOn` is the stable sort by a key that listings
use.
-/

namespace Entitlement

/-- The values in ascending order of a key, equal keys in their old order. -/
def sortOn {α β : Type} [Ord β] (key : α → β) : List α → List α
  | [] => []
  | a :: rest => put a (sortOn key rest)
where
  /-- Puts a value before the first one with no smaller key. -/
  put (a : α) : List α → List α
    | [] => [a]
    | b :: rest => if compare (key b) (key a) = .lt then b :: put a rest else a :: b :: rest

theorem mem_sortOn_put {α β : Type} [Ord β] {key : α → β} {a b : α} {as : List α} :
    b ∈ sortOn.put key a as ↔ b = a ∨ b ∈ as := by
  induction as with
  | nil => simp [sortOn.put]
  | cons c rest ih =>
    simp only [sortOn.put]
    split <;> simp only [List.mem_cons, ih]
    grind

/-- Sorting keeps the members. -/
theorem mem_sortOn {α β : Type} [Ord β] {key : α → β} {b : α} {as : List α} :
    b ∈ sortOn key as ↔ b ∈ as := by
  induction as with
  | nil => simp [sortOn]
  | cons a rest ih => rw [sortOn, mem_sortOn_put, ih, List.mem_cons]

theorem sortOn_put_sorted {α β : Type} [Ord β] [Std.TransOrd β] {key : α → β} {a : α} {as : List α}
    (sorted : as.Pairwise fun b c => (compare (key b) (key c)).isLE) :
    (sortOn.put key a as).Pairwise fun b c => (compare (key b) (key c)).isLE := by
  induction as with
  | nil => simp [sortOn.put]
  | cons b rest ih =>
    obtain ⟨below, tail⟩ := List.pairwise_cons.mp sorted
    simp only [sortOn.put]
    split
    · rename_i less
      refine List.pairwise_cons.mpr ⟨fun c mem => ?_, ih tail⟩
      rcases mem_sortOn_put.mp mem with rfl | mem
      · exact Ordering.isLE_of_eq_lt less
      · exact below c mem
    · rename_i upper
      have first : (compare (key a) (key b)).isLE := by
        rw [Std.OrientedOrd.eq_swap, Ordering.isLE_swap]
        simpa [Ordering.isGE_iff_ne_lt] using upper
      refine List.pairwise_cons.mpr ⟨fun c mem => ?_, sorted⟩
      rcases List.mem_cons.mp mem with rfl | mem
      · exact first
      · exact Std.TransCmp.isLE_trans first (below c mem)

/-- Sorting puts no value before one with a smaller key. -/
theorem sortOn_sorted {α β : Type} [Ord β] [Std.TransOrd β] (key : α → β) (as : List α) :
    (sortOn key as).Pairwise fun a b => (compare (key a) (key b)).isLE := by
  induction as with
  | nil => exact .nil
  | cons a rest ih => exact sortOn_put_sorted ih

/-- Only equal fields compare equal, and equal fields make equal values. -/
theorem lawful_lex {α β γ : Type} [Ord β] [Ord γ] [Std.LawfulEqOrd β] [Std.LawfulEqOrd γ]
    {f : α → β} {g : α → γ} (inj : ∀ a b, f a = f b → g a = g b → a = b) :
    Std.LawfulEqCmp (compareLex (compareOn f) (compareOn g)) where
  compare_self := by simp [compareLex, compareOn]
  eq_of_compare {a b} h := by
    simp only [compareLex, compareOn, Ordering.then_eq_eq] at h
    exact inj a b (Std.LawfulEqOrd.eq_of_compare h.1) (Std.LawfulEqOrd.eq_of_compare h.2)

/-- As `lawful_lex`, for one field. -/
theorem lawful_on {α β : Type} [Ord β] [Std.LawfulEqOrd β] {f : α → β}
    (inj : ∀ a b, f a = f b → a = b) : Std.LawfulEqCmp (compareOn f) where
  compare_self := by simp [compareOn]
  eq_of_compare {a b} h := inj a b (Std.LawfulEqOrd.eq_of_compare h)

end Entitlement
