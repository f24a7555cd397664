/-!
# Finite maps in key order

A map is the list of its entries in strictly ascending key order, so two maps with the same look-ups
are the same map (`SortedMap.ext`), and listing a map needs no sorting. `get?_insert`, `get?_erase`
and `get?_filter` say what each operation does to look-ups.
-/

namespace Entitlement

/-- Entries in strictly ascending key order. -/
structure SortedMap (κ ν : Type) [Ord κ] where
  /-- The entries, smallest key first. -/
  toList : List (κ × ν)
  sorted : toList.Pairwise fun a b => compare a.1 b.1 = .lt
deriving DecidableEq

namespace SortedMap

variable {κ ν : Type} [Ord κ]

def empty : SortedMap κ ν := ⟨[], .nil⟩

instance : EmptyCollection (SortedMap κ ν) := ⟨empty⟩
instance : Inhabited (SortedMap κ ν) := ⟨empty⟩

/-- The value of the first entry with the key. -/
def lookup (k : κ) : List (κ × ν) → Option ν
  | [] => none
  | entry :: rest => if compare k entry.1 = .eq then some entry.2 else lookup k rest

/-- Puts an entry in its place, in place of an entry with the same key. -/
def place (k : κ) (v : ν) : List (κ × ν) → List (κ × ν)
  | [] => [(k, v)]
  | entry :: rest =>
    match compare k entry.1 with
    | .lt => (k, v) :: entry :: rest
    | .eq => (k, v) :: rest
    | .gt => entry :: place k v rest

def get? (m : SortedMap κ ν) (k : κ) : Option ν := lookup k m.toList

def contains (m : SortedMap κ ν) (k : κ) : Bool := (m.get? k).isSome

/-- The keys in ascending order. -/
def keys (m : SortedMap κ ν) : List κ := m.toList.map (·.1)

def values (m : SortedMap κ ν) : List ν := m.toList.map (·.2)

theorem mem_place {k : κ} {v : ν} {entries : List (κ × ν)} {x : κ × ν}
    (h : x ∈ place k v entries) : x = (k, v) ∨ x ∈ entries := by
  induction entries with
  | nil => simpa [place] using h
  | cons entry rest ih =>
    simp only [place] at h
    split at h <;> grind

theorem place_sorted [Std.TransOrd κ] {k : κ} {v : ν} {entries : List (κ × ν)}
    (h : entries.Pairwise fun a b => compare a.1 b.1 = .lt) :
    (place k v entries).Pairwise fun a b => compare a.1 b.1 = .lt := by
  induction entries with
  | nil => simp [place]
  | cons entry rest ih =>
    obtain ⟨above, tail⟩ := List.pairwise_cons.mp h
    simp only [place]
    split
    · rename_i less
      refine List.pairwise_cons.mpr ⟨fun x mem => ?_, h⟩
      rcases List.mem_cons.mp mem with rfl | mem
      · exact less
      · exact Std.TransCmp.lt_trans less (above x mem)
    · rename_i same
      refine List.pairwise_cons.mpr ⟨fun x mem => ?_, tail⟩
      exact Std.TransCmp.lt_of_eq_of_lt same (above x mem)
    · rename_i greater
      refine List.pairwise_cons.mpr ⟨fun x mem => ?_, ih tail⟩
      rcases mem_place mem with rfl | mem
      · exact Std.OrientedCmp.gt_iff_lt.mp greater
      · exact above x mem

def insert [Std.TransOrd κ] (m : SortedMap κ ν) (k : κ) (v : ν) : SortedMap κ ν :=
  ⟨place k v m.toList, place_sorted m.sorted⟩

def filter (m : SortedMap κ ν) (keep : κ → ν → Bool) : SortedMap κ ν :=
  ⟨m.toList.filter fun entry => keep entry.1 entry.2, m.sorted.filter _⟩

def erase (m : SortedMap κ ν) (k : κ) : SortedMap κ ν :=
  m.filter fun key _ => compare k key != .eq

/-- The map of some entries, a later one in place of an earlier one with the same key. -/
def ofList [Std.TransOrd κ] (entries : List (κ × ν)) : SortedMap κ ν :=
  entries.foldl (fun m entry => m.insert entry.1 entry.2) ∅

/-! ### Look-ups -/

theorem lookup_place [Std.TransOrd κ] [Std.LawfulEqOrd κ] (k k' : κ) (v : ν)
    (entries : List (κ × ν)) :
    lookup k' (place k v entries) = if compare k' k = .eq then some v else lookup k' entries := by
  induction entries with
  | nil => simp [place, lookup]
  | cons entry rest ih =>
    simp only [place]
    split
    · simp [lookup]
    · rename_i same
      have := Std.LawfulEqOrd.eq_of_compare same
      subst this
      simp only [lookup]
      split <;> rfl
    · rename_i greater
      simp only [lookup, ih]
      by_cases hk : compare k' entry.1 = .eq
      · have := Std.LawfulEqOrd.eq_of_compare hk
        subst this
        have : compare entry.1 k ≠ .eq := fun same => by
          have := Std.LawfulEqOrd.eq_of_compare same
          subst this
          simp at greater
        simp [this]
      · simp [hk]

theorem get?_insert [Std.TransOrd κ] [Std.LawfulEqOrd κ] [DecidableEq κ] (m : SortedMap κ ν)
    (k k' : κ) (v : ν) : (m.insert k v).get? k' = if k' = k then some v else m.get? k' := by
  simp only [get?, insert, lookup_place, Std.LawfulEqOrd.compare_eq_iff_eq]

theorem exists_get?_insert [Std.TransOrd κ] [Std.LawfulEqOrd κ] [DecidableEq κ] {m : SortedMap κ ν}
    {k : κ} (found : ∃ v, m.get? k = some v) (k' : κ) (v' : ν) :
    ∃ v, (m.insert k' v').get? k = some v := by
  rw [get?_insert]
  split
  · exact ⟨v', rfl⟩
  · exact found

theorem lookup_eq_some_iff [Std.TransOrd κ] [Std.LawfulEqOrd κ] {k : κ} {v : ν}
    {entries : List (κ × ν)} (h : entries.Pairwise fun a b => compare a.1 b.1 = .lt) :
    lookup k entries = some v ↔ (k, v) ∈ entries := by
  induction entries with
  | nil => simp [lookup]
  | cons entry rest ih =>
    obtain ⟨above, tail⟩ := List.pairwise_cons.mp h
    simp only [lookup]
    split
    · rename_i same
      have := Std.LawfulEqOrd.eq_of_compare same
      subst this
      have fresh : ∀ w, (entry.1, w) ∉ rest := fun w mem => by
        have := above _ mem
        simp at this
      simp only [Option.some.injEq, List.mem_cons, fresh, or_false]
      exact ⟨fun eq => by rw [← eq], fun eq => by rw [← eq]⟩
    · rename_i differ
      rw [ih tail, List.mem_cons]
      constructor
      · exact Or.inr
      · rintro (eq | mem)
        · subst eq
          simp at differ
        · exact mem

/-- The entries are what look-ups find. -/
theorem mem_toList_iff [Std.TransOrd κ] [Std.LawfulEqOrd κ] {m : SortedMap κ ν} {k : κ} {v : ν} :
    (k, v) ∈ m.toList ↔ m.get? k = some v := (lookup_eq_some_iff m.sorted).symm

theorem mem_keys_iff [Std.TransOrd κ] [Std.LawfulEqOrd κ] {m : SortedMap κ ν} {k : κ} :
    k ∈ m.keys ↔ ∃ v, m.get? k = some v := by
  simp [keys, mem_toList_iff]

theorem mem_values_iff [Std.TransOrd κ] [Std.LawfulEqOrd κ] {m : SortedMap κ ν} {v : ν} :
    v ∈ m.values ↔ ∃ k, m.get? k = some v := by
  rw [values, List.mem_map]
  constructor
  · rintro ⟨⟨k, _⟩, mem, rfl⟩
    exact ⟨k, mem_toList_iff.mp mem⟩
  · rintro ⟨k, found⟩
    exact ⟨(k, v), mem_toList_iff.mpr found, rfl⟩

theorem get?_filter [Std.TransOrd κ] [Std.LawfulEqOrd κ] (m : SortedMap κ ν)
    (keep : κ → ν → Bool) (k : κ) : (m.filter keep).get? k = (m.get? k).filter (keep k) := by
  ext v
  rw [← mem_toList_iff]
  simp only [filter, List.mem_filter, mem_toList_iff, Option.filter_eq_some_iff]

theorem get?_erase [Std.TransOrd κ] [Std.LawfulEqOrd κ] [DecidableEq κ] (m : SortedMap κ ν)
    (k k' : κ) : (m.erase k).get? k' = if k' = k then none else m.get? k' := by
  simp only [erase, get?_filter]
  by_cases h : k' = k
  · subst h
    cases m.get? k' <;> simp [Option.filter]
  · have : (compare k k' != .eq) = true := by
      simp only [bne_iff_ne, ne_eq, Std.LawfulEqOrd.compare_eq_iff_eq]
      exact fun same => h same.symm
    cases m.get? k' <;> simp [Option.filter, this, h]

/-- Two maps with the same look-ups are the same map. -/
theorem ext [Std.TransOrd κ] [Std.LawfulEqOrd κ] {m n : SortedMap κ ν}
    (h : ∀ k, m.get? k = n.get? k) : m = n := by
  have perm : ∀ {xs ys : List (κ × ν)}, (xs.Pairwise fun a b => compare a.1 b.1 = .lt) →
      (ys.Pairwise fun a b => compare a.1 b.1 = .lt) → (∀ k v, (k, v) ∈ xs ↔ (k, v) ∈ ys) →
      xs = ys := by
    intro xs
    induction xs with
    | nil =>
      intro ys _ _ same
      cases ys with
      | nil => rfl
      | cons y ys => exact absurd ((same y.1 y.2).mpr List.mem_cons_self) (by simp)
    | cons x xs ih =>
      intro ys hx hy same
      cases ys with
      | nil => exact absurd ((same x.1 x.2).mp List.mem_cons_self) (by simp)
      | cons y ys =>
        obtain ⟨hx1, hx2⟩ := List.pairwise_cons.mp hx
        obtain ⟨hy1, hy2⟩ := List.pairwise_cons.mp hy
        have head : x = y := by
          rcases List.mem_cons.mp ((same x.1 x.2).mp List.mem_cons_self) with eq | inY
          · exact eq
          · rcases List.mem_cons.mp ((same y.1 y.2).mpr List.mem_cons_self) with eq | inX
            · exact eq.symm
            · have a := hx1 _ inX
              have b := hy1 _ inY
              exact absurd (Std.TransCmp.lt_trans a b) (by simp)
        subst head
        refine congrArg (x :: ·) (ih hx2 hy2 fun k v => ?_)
        have := same k v
        simp only [List.mem_cons] at this
        constructor
        · intro mem
          rcases this.mp (Or.inr mem) with rfl | found
          · exact absurd (hx1 _ mem) (by simp)
          · exact found
        · intro mem
          rcases this.mpr (Or.inr mem) with rfl | found
          · exact absurd (hy1 _ mem) (by simp)
          · exact found
  obtain ⟨xs, hx⟩ := m
  obtain ⟨ys, hy⟩ := n
  have : xs = ys := perm hx hy fun k v => by
    have := h k
    simp only [get?] at this
    rw [← lookup_eq_some_iff hx, ← lookup_eq_some_iff hy, this]
  subst this
  rfl

/-- Putting a value where it already is changes nothing. -/
theorem insert_of_get? [Std.TransOrd κ] [Std.LawfulEqOrd κ] [DecidableEq κ] {m : SortedMap κ ν}
    {k : κ} {v : ν} (found : m.get? k = some v) : m.insert k v = m := by
  refine ext fun other => ?_
  rw [get?_insert]
  split
  · rename_i same
    rw [same, found]
  · rfl

end SortedMap

end Entitlement
