import Entitlement.SortedMap

/-!
# Finite sets in ascending order

A set is a map of its members to nothing, so listing it gives the members in ascending order, and
two sets with the same members are the same set (`SortedSet.ext`).
-/

namespace Entitlement

/-- Members in strictly ascending order. -/
structure SortedSet (α : Type) [Ord α] where
  /-- The members as the keys of a map. -/
  members : SortedMap α Unit
deriving DecidableEq

namespace SortedSet

variable {α : Type} [Ord α]

def empty : SortedSet α := ⟨∅⟩

instance : EmptyCollection (SortedSet α) := ⟨empty⟩
instance : Inhabited (SortedSet α) := ⟨empty⟩

/-- The members, smallest first. -/
def toList (s : SortedSet α) : List α := s.members.keys

def contains (s : SortedSet α) (a : α) : Bool := s.members.contains a

instance : Membership α (SortedSet α) := ⟨fun s a => s.contains a⟩

instance (a : α) (s : SortedSet α) : Decidable (a ∈ s) :=
  inferInstanceAs (Decidable (s.contains a = true))

def isEmpty (s : SortedSet α) : Bool := s.members.toList.isEmpty

def insert [Std.TransOrd α] (s : SortedSet α) (a : α) : SortedSet α := ⟨s.members.insert a ()⟩

def erase (s : SortedSet α) (a : α) : SortedSet α := ⟨s.members.erase a⟩

def filter (s : SortedSet α) (keep : α → Bool) : SortedSet α :=
  ⟨s.members.filter fun a _ => keep a⟩

def insertAll [Std.TransOrd α] (s : SortedSet α) (as : List α) : SortedSet α := as.foldl insert s

def ofList [Std.TransOrd α] (as : List α) : SortedSet α := insertAll ∅ as

/-! ### Membership -/

theorem mem_iff {s : SortedSet α} {a : α} : a ∈ s ↔ s.contains a = true := Iff.rfl

theorem not_mem_empty (a : α) : a ∉ (∅ : SortedSet α) := by
  rw [mem_iff]
  exact Bool.false_ne_true

variable [Std.TransOrd α] [Std.LawfulEqOrd α]

theorem mem_toList_iff {s : SortedSet α} {a : α} : a ∈ s.toList ↔ a ∈ s := by
  rw [mem_iff, contains, SortedMap.contains, Option.isSome_iff_exists]
  exact SortedMap.mem_keys_iff

theorem mem_insert [DecidableEq α] {s : SortedSet α} {a b : α} : b ∈ s.insert a ↔ b = a ∨ b ∈ s := by
  simp only [mem_iff, contains, SortedMap.contains, insert, SortedMap.get?_insert]
  split <;> simp_all

theorem mem_erase [DecidableEq α] {s : SortedSet α} {a b : α} : b ∈ s.erase a ↔ b ≠ a ∧ b ∈ s := by
  simp only [mem_iff, contains, SortedMap.contains, erase, SortedMap.get?_erase]
  split <;> simp_all

theorem mem_filter {s : SortedSet α} {keep : α → Bool} {a : α} :
    a ∈ s.filter keep ↔ a ∈ s ∧ keep a = true := by
  simp only [mem_iff, contains, SortedMap.contains, filter, SortedMap.get?_filter]
  cases s.members.get? a <;> simp [Option.filter]

theorem mem_insertAll [DecidableEq α] {s : SortedSet α} {as : List α} {b : α} :
    b ∈ s.insertAll as ↔ b ∈ s ∨ b ∈ as := by
  induction as generalizing s with
  | nil => simp [insertAll]
  | cons a rest ih =>
    have step : s.insertAll (a :: rest) = (s.insert a).insertAll rest := rfl
    rw [step, ih, mem_insert, List.mem_cons]
    grind

theorem mem_ofList [DecidableEq α] {as : List α} {b : α} : b ∈ ofList as ↔ b ∈ as := by
  rw [ofList, mem_insertAll]
  simp [not_mem_empty]

theorem isEmpty_iff {s : SortedSet α} : s.isEmpty = true ↔ ∀ a, a ∉ s := by
  simp only [isEmpty, List.isEmpty_iff]
  constructor
  · intro none a mem
    have := mem_toList_iff.mpr mem
    simp [toList, SortedMap.keys, none] at this
  · intro none
    cases h : s.members.toList with
    | nil => rfl
    | cons entry rest =>
      refine absurd (mem_toList_iff.mp ?_) (none entry.1)
      simp [toList, SortedMap.keys, h]

theorem isEmpty_eq_false_iff {s : SortedSet α} : s.isEmpty = false ↔ ∃ a, a ∈ s := by
  rw [← Bool.not_eq_true, isEmpty_iff]
  simp only [Classical.not_forall, Classical.not_not]

theorem isEmpty_insert [DecidableEq α] (s : SortedSet α) (a : α) : (s.insert a).isEmpty = false :=
  isEmpty_eq_false_iff.mpr ⟨a, mem_insert.mpr (.inl rfl)⟩

/-- Two sets with the same members are the same set. -/
theorem ext {s t : SortedSet α} (h : ∀ a, a ∈ s ↔ a ∈ t) : s = t := by
  obtain ⟨s⟩ := s
  obtain ⟨t⟩ := t
  congr 1
  refine SortedMap.ext fun a => ?_
  have := h a
  simp only [mem_iff, contains, SortedMap.contains] at this
  cases hs : s.get? a <;> cases ht : t.get? a <;> simp_all

theorem ofList_toList [DecidableEq α] (s : SortedSet α) : ofList s.toList = s := by
  refine ext fun a => ?_
  rw [mem_ofList, mem_toList_iff]

theorem insertAll_insertAll [DecidableEq α] (s : SortedSet α) (as : List α) :
    (s.insertAll as).insertAll as = s.insertAll as := by
  refine ext fun a => ?_
  rw [mem_insertAll, mem_insertAll, or_assoc, or_self]

theorem insert_of_mem [DecidableEq α] {s : SortedSet α} {a : α} (mem : a ∈ s) : s.insert a = s := by
  refine ext fun b => ?_
  rw [mem_insert]
  exact or_iff_right_of_imp fun same => same ▸ mem

theorem erase_of_not_mem [DecidableEq α] {s : SortedSet α} {a : α} (apart : a ∉ s) :
    s.erase a = s := by
  refine ext fun b => ?_
  rw [mem_erase]
  exact and_iff_right_of_imp fun mem same => apart (same ▸ mem)

end SortedSet

end Entitlement
