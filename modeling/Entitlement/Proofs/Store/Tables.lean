import Entitlement.Store.Database

/-!
# Tables of what is stored

A table holds one row for each value of a map, in whatever order (`Tabulates`). What is done to the
map and what is done to the rows then go together, and rows that are read back one by one give the
values of the map, in the order of the rows.
-/

namespace Entitlement

/-! ### Readings of lists -/

section Readings

variable {ε α β γ : Type} {f : α → Except ε β}

theorem mapM_cons_ok {a : α} {as : List α} {b : β} {bs : List β} (first : f a = .ok b)
    (others : as.mapM f = .ok bs) : (a :: as).mapM f = .ok (b :: bs) := by
  rw [List.mapM_cons, first, others]
  rfl

theorem mapM_cons_inv {a : α} {as : List α} {bs : List β} (ran : (a :: as).mapM f = .ok bs) :
    ∃ b rest, bs = b :: rest ∧ f a = .ok b ∧ as.mapM f = .ok rest := by
  rw [List.mapM_cons] at ran
  cases first : f a with
  | error e =>
    rw [first] at ran
    cases ran
  | ok b =>
    cases others : as.mapM f with
    | error e =>
      rw [first, others] at ran
      cases ran
    | ok rest =>
      rw [first, others] at ran
      cases ran
      exact ⟨b, rest, rfl, rfl, rfl⟩

theorem mapM_perm {as as' : List α} (perm : as.Perm as') {bs' : List β}
    (ran : as'.mapM f = .ok bs') : ∃ bs, as.mapM f = .ok bs ∧ bs.Perm bs' := by
  induction perm generalizing bs' with
  | nil => exact ⟨bs', ran, .refl _⟩
  | cons a _ ih =>
    obtain ⟨b, rest, rfl, first, others⟩ := mapM_cons_inv ran
    obtain ⟨bs, ran, perm⟩ := ih others
    exact ⟨b :: bs, mapM_cons_ok first ran, perm.cons b⟩
  | swap a b as =>
    obtain ⟨c, rest, rfl, first, ran⟩ := mapM_cons_inv ran
    obtain ⟨d, rest, rfl, second, others⟩ := mapM_cons_inv ran
    exact ⟨d :: c :: rest, mapM_cons_ok second (mapM_cons_ok first others), .swap ..⟩
  | trans _ _ ih ih' =>
    obtain ⟨bs, ran, perm⟩ := ih' ran
    obtain ⟨bs'', ran, perm'⟩ := ih ran
    exact ⟨bs'', ran, perm'.trans perm⟩

theorem mapM_map_ok {row : γ → α} {value : γ → β} {cs : List γ}
    (each : ∀ c ∈ cs, f (row c) = .ok (value c)) : (cs.map row).mapM f = .ok (cs.map value) := by
  induction cs with
  | nil => rfl
  | cons c rest ih =>
    obtain ⟨first, others⟩ := List.forall_mem_cons.mp each
    exact mapM_cons_ok first (ih others)

theorem mapM_total {as : List α} (each : ∀ a ∈ as, ∃ b, f a = .ok b) :
    ∃ bs, as.mapM f = .ok bs ∧ ∀ b, b ∈ bs ↔ ∃ a ∈ as, f a = .ok b := by
  induction as with
  | nil => exact ⟨[], rfl, by simp⟩
  | cons a rest ih =>
    obtain ⟨⟨b, first⟩, others⟩ := List.forall_mem_cons.mp each
    obtain ⟨bs, ran, results⟩ := ih others
    refine ⟨b :: bs, mapM_cons_ok first ran, fun c => ?_⟩
    simp only [List.mem_cons, results, exists_eq_or_imp, first, Except.ok.injEq]
    exact or_congr_left eq_comm

end Readings

/-- Where a row is made of two parts, the second parts of the rows with one first part are those that
make a row with it. -/
theorem mem_map_filter {ρ α β : Type} [DecidableEq α] {first : ρ → α} {second : ρ → β}
    (make : α → β → ρ) (made : ∀ r, make (first r) (second r) = r)
    (parts : ∀ a b, first (make a b) = a ∧ second (make a b) = b) {rows : List ρ} {a : α} {b : β} :
    b ∈ (rows.filter (first · == a)).map second ↔ make a b ∈ rows := by
  simp only [List.mem_map, List.mem_filter, beq_iff_eq]
  constructor
  · rintro ⟨r, ⟨mem, rfl⟩, rfl⟩
    rw [made]
    exact mem
  · intro mem
    exact ⟨make a b, ⟨mem, (parts a b).1⟩, (parts a b).2⟩

theorem sortOn_put_perm {α β : Type} [Ord β] (key : α → β) (a : α) (as : List α) :
    (sortOn.put key a as).Perm (a :: as) := by
  induction as with
  | nil => exact .refl _
  | cons b rest ih =>
    unfold sortOn.put
    split
    · exact (ih.cons b).trans (.swap ..)
    · exact .refl _

theorem sortOn_perm {α β : Type} [Ord β] (key : α → β) (as : List α) : (sortOn key as).Perm as := by
  induction as with
  | nil => exact .refl _
  | cons a rest ih => exact (sortOn_put_perm key a _).trans (ih.cons a)

/-! ### Stored values -/

variable {κ ν ρ : Type} [Ord κ]

namespace SortedMap

theorem place_perm {k : κ} {v : ν} {entries : List (κ × ν)}
    (absent : ∀ entry ∈ entries, compare k entry.1 ≠ .eq) :
    (place k v entries).Perm ((k, v) :: entries) := by
  induction entries with
  | nil => exact .refl _
  | cons entry rest ih =>
    obtain ⟨here, others⟩ := List.forall_mem_cons.mp absent
    unfold place
    split
    · exact .refl _
    · rename_i same
      exact absurd same here
    · exact ((ih others).cons entry).trans (.swap ..)

/-- Different keys have values that differ in one respect. -/
def Apart {α : Type} (respect : ν → α) (stored : SortedMap κ ν) : Prop :=
  ∀ k k' v v', stored.get? k = some v → stored.get? k' = some v' → respect v = respect v' → k = k'

theorem Apart.of_fewer {α : Type} {respect : ν → α} {stored fewer : SortedMap κ ν}
    (apart : stored.Apart respect)
    (each : ∀ k v, fewer.get? k = some v → stored.get? k = some v) : fewer.Apart respect :=
  fun k k' v v' found found' => apart k k' v v' (each k v found) (each k' v' found')

variable [Std.TransOrd κ] [Std.LawfulEqOrd κ] {stored : SortedMap κ ν} {k : κ}

theorem insert_perm (absent : stored.get? k = none) (v : ν) :
    (stored.insert k v).toList.Perm ((k, v) :: stored.toList) := by
  apply place_perm
  rintro ⟨key, value⟩ mem same
  have here : k = key := Std.LawfulEqOrd.eq_of_compare same
  have found := mem_toList_iff.mp mem
  rw [← here, absent] at found
  cases found

theorem Apart.pairwise_values {α : Type} {respect : ν → α} (apart : stored.Apart respect) :
    stored.values.Pairwise fun v w => respect v ≠ respect w := by
  refine List.pairwise_map.mpr (stored.sorted.imp_of_mem ?_)
  rintro ⟨k, v⟩ ⟨k', v'⟩ mem mem' less same
  have here : k = k' := apart k k' v v' (mem_toList_iff.mp mem) (mem_toList_iff.mp mem') same
  rw [here] at less
  simp at less

/-- A condition on the values may stand for one on the entries. -/
theorem values_filter {keep : κ → ν → Bool} (pick : ν → Bool)
    (same : ∀ k v, stored.get? k = some v → keep k v = pick v) :
    (stored.filter keep).values = stored.values.filter pick := by
  rw [values, values, List.filter_map, filter]
  congr 1
  refine List.filter_congr fun entry mem => ?_
  exact same entry.1 entry.2 (mem_toList_iff.mp mem)

variable [DecidableEq κ]

theorem get?_insert_self (stored : SortedMap κ ν) (k : κ) (v : ν) :
    (stored.insert k v).get? k = some v := by
  rw [get?_insert, if_pos rfl]

theorem contains_insert {k k' : κ} {v : ν} :
    (stored.insert k v).contains k' = true ↔ k' = k ∨ stored.contains k' = true := by
  rw [contains, get?_insert, contains]
  split <;> simp_all

theorem get?_erase_self (stored : SortedMap κ ν) (k : κ) : (stored.erase k).get? k = none := by
  rw [get?_erase, if_pos rfl]

theorem get?_insert_of_ne (stored : SortedMap κ ν) {k k' : κ} (differs : k' ≠ k) (v : ν) :
    (stored.insert k v).get? k' = stored.get? k' := by
  rw [get?_insert, if_neg differs]

theorem get?_erase_of_ne (stored : SortedMap κ ν) {k k' : κ} (differs : k' ≠ k) :
    (stored.erase k).get? k' = stored.get? k' := by
  rw [get?_erase, if_neg differs]

theorem forall_insert {P : κ → ν → Prop} {v : ν} (own : P k v)
    (others : ∀ k' v', stored.get? k' = some v' → k' ≠ k → P k' v') :
    ∀ k' v', (stored.insert k v).get? k' = some v' → P k' v' := by
  intro k' v' found
  rw [get?_insert] at found
  split at found
  · rename_i here
    cases found
    exact here.symm ▸ own
  · rename_i other
    exact others k' v' found other

theorem forall_erase {P : κ → ν → Prop} (each : ∀ k' v', stored.get? k' = some v' → P k' v') :
    ∀ k' v', (stored.erase k).get? k' = some v' → P k' v' := by
  intro k' v' found
  rw [get?_erase] at found
  split at found
  · cases found
  · exact each k' v' found

theorem Apart.insert {α : Type} {respect : ν → α} (apart : stored.Apart respect) {v : ν}
    (own : ∀ k' v', stored.get? k' = some v' → respect v' = respect v → k' = k) :
    (stored.insert k v).Apart respect := by
  intro k₁ k₂ v₁ v₂ found₁ found₂ same
  rw [get?_insert] at found₁ found₂
  -- Each of the two is the value put in, or was stored before.
  split at found₁ <;> split at found₂
  · rename_i here₁ here₂
    exact here₁.trans here₂.symm
  · rename_i here₁ _
    cases found₁
    exact here₁.trans (own k₂ v₂ found₂ same.symm).symm
  · rename_i here₂
    cases found₂
    exact (own k₁ v₁ found₁ same).trans here₂.symm
  · exact apart k₁ k₂ v₁ v₂ found₁ found₂ same

theorem insert_ne {stored : SortedMap κ ν} {k : κ} {v : ν} (other : stored.get? k ≠ some v) :
    stored.insert k v ≠ stored := by
  intro same
  have now := get?_insert_self stored k v
  rw [same] at now
  exact other now

theorem erase_ne {stored : SortedMap κ ν} {k : κ} (present : stored.get? k ≠ none) :
    stored.erase k ≠ stored := by
  intro same
  have now := get?_erase_self stored k
  rw [same] at now
  exact present now

theorem erase_of_get? {stored : SortedMap κ ν} {k : κ} (absent : stored.get? k = none) :
    stored.erase k = stored := by
  refine ext fun key => ?_
  rw [get?_erase]
  split
  · rename_i here
    rw [here, absent]
  · rfl

theorem erase_insert (stored : SortedMap κ ν) (k : κ) (v : ν) :
    (stored.insert k v).erase k = stored.erase k := by
  refine ext fun key => ?_
  rw [get?_erase, get?_erase, get?_insert]
  split <;> rfl

theorem insert_insert (stored : SortedMap κ ν) (k : κ) (v v' : ν) :
    (stored.insert k v).insert k v' = stored.insert k v' := by
  refine ext fun key => ?_
  rw [get?_insert, get?_insert, get?_insert]
  split <;> rfl

theorem insert_erase (stored : SortedMap κ ν) (k : κ) (v : ν) :
    (stored.erase k).insert k v = stored.insert k v := by
  refine ext fun key => ?_
  rw [get?_insert, get?_insert, get?_erase]
  split <;> rfl

end SortedMap

/-! ### Maps compared -/

namespace SortedMap

variable {less : ν → ν → Prop} {stored stored' stored'' : SortedMap κ ν}

/-- What is stored under a key of the one map is less than what is under it in the other. -/
def Within (less : ν → ν → Prop) (stored stored' : SortedMap κ ν) : Prop :=
  ∀ k v, stored.get? k = some v → ∃ v', stored'.get? k = some v' ∧ less v v'

theorem Within.refl (own : ∀ v, less v v) (stored : SortedMap κ ν) : stored.Within less stored :=
  fun _ v found => ⟨v, found, own v⟩

theorem Within.trans (chain : ∀ {a b c}, less a b → less b c → less a c)
    (first : stored.Within less stored') (second : stored'.Within less stored'') :
    stored.Within less stored'' := by
  intro k v found
  obtain ⟨v', found', below⟩ := first k v found
  obtain ⟨v'', found'', below'⟩ := second k v' found'
  exact ⟨v'', found'', chain below below'⟩

variable [Std.TransOrd κ] [Std.LawfulEqOrd κ]

theorem Within.values (within : stored.Within less stored') {v : ν} (mem : v ∈ stored.values) :
    ∃ v' ∈ stored'.values, less v v' := by
  obtain ⟨k, found⟩ := mem_values_iff.mp mem
  obtain ⟨v', found', below⟩ := within k v found
  exact ⟨v', mem_values_iff.mpr ⟨k, found'⟩, below⟩

variable [DecidableEq κ] {k : κ} {v v' : ν}

theorem within_insert (own : ∀ v, less v v) (above : ∀ v, stored.get? k = some v → less v v') :
    stored.Within less (stored.insert k v') := by
  intro key value found
  rw [get?_insert]
  split
  · rename_i here
    rw [here] at found
    exact ⟨v', rfl, above value found⟩
  · exact ⟨value, found, own value⟩

theorem insert_within (own : ∀ v, less v v) (found : stored.get? k = some v) (below : less v' v) :
    (stored.insert k v').Within less stored :=
  forall_insert ⟨v, found, below⟩ fun _ value found' _ => ⟨value, found', own value⟩

theorem erase_within (own : ∀ v, less v v) (stored : SortedMap κ ν) (k : κ) :
    (stored.erase k).Within less stored :=
  forall_erase (Within.refl own stored)

end SortedMap

/-! ### Rows of tables -/

theorem SortedSet.nodup_toList {α : Type} [Ord α] [Std.TransOrd α] (s : SortedSet α) :
    s.toList.Nodup := by
  refine List.pairwise_map.mpr (s.members.sorted.imp fun {a b} less same => ?_)
  rw [same, Std.ReflOrd.compare_self] at less
  cases less

/-- The rows of a table are those of what is stored, in whatever order. -/
def Tabulates (row : κ → ν → ρ) (stored : SortedMap κ ν) (rows : List ρ) : Prop :=
  rows.Perm (stored.toList.map fun entry => row entry.1 entry.2)

namespace Tabulates

variable {row : κ → ν → ρ} {stored : SortedMap κ ν} {rows : List ρ} {k : κ} {v v' : ν}

theorem empty : Tabulates row (∅ : SortedMap κ ν) [] := List.Perm.refl []

variable [Std.TransOrd κ] [Std.LawfulEqOrd κ]

theorem mem_iff (tabulates : Tabulates row stored rows) {r : ρ} :
    r ∈ rows ↔ ∃ k v, stored.get? k = some v ∧ row k v = r := by
  rw [List.Perm.mem_iff tabulates, List.mem_map]
  constructor
  · rintro ⟨⟨k, v⟩, mem, same⟩
    exact ⟨k, v, SortedMap.mem_toList_iff.mp mem, same⟩
  · rintro ⟨k, v, found, same⟩
    exact ⟨(k, v), SortedMap.mem_toList_iff.mpr found, same⟩

theorem any (tabulates : Tabulates row stored rows) {picks : ρ → Bool} :
    rows.any picks = true ↔ ∃ k v, stored.get? k = some v ∧ picks (row k v) = true := by
  rw [List.any_eq_true]
  constructor
  · rintro ⟨r, mem, picked⟩
    obtain ⟨k, v, found, rfl⟩ := tabulates.mem_iff.mp mem
    exact ⟨k, v, found, picked⟩
  · rintro ⟨k, v, found, picked⟩
    exact ⟨_, tabulates.mem_iff.mpr ⟨k, v, found, rfl⟩, picked⟩

/-- Looking for the row of a key is looking the key up. -/
theorem find? (tabulates : Tabulates row stored rows) {picks : ρ → Bool}
    (own : ∀ k' v, picks (row k' v) = true ↔ k' = k) :
    rows.find? picks = (stored.get? k).map (row k) := by
  cases looked : stored.get? k with
  | none =>
    refine List.find?_eq_none.mpr fun r mem picked => ?_
    obtain ⟨k', v, found, rfl⟩ := tabulates.mem_iff.mp mem
    rw [(own k' v).mp picked, looked] at found
    cases found
  | some v =>
    cases found : rows.find? picks with
    | none =>
      have mem : row k v ∈ rows := tabulates.mem_iff.mpr ⟨k, v, looked, rfl⟩
      exact absurd ((own k v).mpr rfl) (List.find?_eq_none.mp found _ mem)
    | some r =>
      obtain ⟨k', v', looked', rfl⟩ := tabulates.mem_iff.mp (List.mem_of_find?_eq_some found)
      have here := (own k' v').mp (List.find?_some found)
      rw [here, looked] at looked'
      rw [here, Option.some.inj looked']
      rfl

theorem filter (tabulates : Tabulates row stored rows) (keep : κ → ν → Bool) (keepRow : ρ → Bool)
    (same : ∀ k v, stored.get? k = some v → keepRow (row k v) = keep k v) :
    Tabulates row (stored.filter keep) (rows.filter keepRow) := by
  have kept : (stored.toList.map fun entry => row entry.1 entry.2).filter keepRow =
      (stored.filter keep).toList.map fun entry => row entry.1 entry.2 := by
    rw [List.filter_map, SortedMap.filter]
    congr 1
    refine List.filter_congr fun entry mem => ?_
    exact same entry.1 entry.2 (SortedMap.mem_toList_iff.mp mem)
  unfold Tabulates
  rw [← kept]
  exact List.Perm.filter _ tabulates

theorem erase (tabulates : Tabulates row stored rows) {keepRow : ρ → Bool}
    (same : ∀ k' v, keepRow (row k' v) = true ↔ k' ≠ k) :
    Tabulates row (stored.erase k) (rows.filter keepRow) := by
  apply tabulates.filter
  intro k' v _
  rw [Bool.eq_iff_iff, same, bne_iff_ne, ne_eq, ne_eq, Std.LawfulEqOrd.compare_eq_iff_eq, eq_comm]

theorem insert (tabulates : Tabulates row stored rows) (absent : stored.get? k = none) (v : ν) :
    Tabulates row (stored.insert k v) (rows ++ [row k v]) := by
  have added := (SortedMap.insert_perm absent v).map fun entry => row entry.1 entry.2
  refine (List.perm_append_singleton _ _).trans (List.Perm.trans ?_ added.symm)
  exact List.Perm.cons _ tabulates

/-- Rows that are read back give what is stored. -/
theorem read_perm {ε : Type} (tabulates : Tabulates row stored rows) (read : ρ → Except ε ν)
    (back : ∀ k v, stored.get? k = some v → read (row k v) = .ok v) :
    ∃ values, rows.mapM read = .ok values ∧ values.Perm stored.values := by
  apply mapM_perm tabulates
  apply mapM_map_ok
  intro entry mem
  exact back entry.1 entry.2 (SortedMap.mem_toList_iff.mp mem)

variable [DecidableEq κ]

/-- What is stored under a key may change where its row does not show it. -/
theorem replace (tabulates : Tabulates row stored rows) (found : stored.get? k = some v)
    (same : row k v' = row k v) : Tabulates row (stored.insert k v') rows := by
  have absent := SortedMap.get?_erase_self stored k
  have now := (SortedMap.insert_perm absent v').map fun entry => row entry.1 entry.2
  have before := (SortedMap.insert_perm absent v).map fun entry => row entry.1 entry.2
  rw [SortedMap.insert_erase, List.map_cons] at now before
  rw [SortedMap.insert_of_get? found] at before
  rw [same] at now
  exact List.Perm.trans tabulates (before.trans now.symm)

end Tabulates

/-! ### Rows of the parts of stored values -/

/-- The rows that refer to the key of a stored value are those of its parts, and no row refers to
another key. -/
def Details {α : Type} (make : κ → α → ρ) (has : ν → α → Prop) (stored : SortedMap κ ν)
    (rows : List ρ) : Prop :=
  ∀ k a, make k a ∈ rows ↔ ∃ v, stored.get? k = some v ∧ has v a

namespace Details

variable {α : Type} {make : κ → α → ρ} {has : ν → α → Prop} {stored : SortedMap κ ν}
  {rows rows' : List ρ} {k : κ} {v : ν}

theorem empty : Details make has (∅ : SortedMap κ ν) [] := by
  intro k a
  refine iff_of_false List.not_mem_nil ?_
  rintro ⟨_, found, _⟩
  cases found

theorem of_found (details : Details make has stored rows) (found : stored.get? k = some v) (a : α) :
    make k a ∈ rows ↔ has v a := by
  rw [details k a, found]
  simp

theorem not_mem (details : Details make has stored rows) (absent : stored.get? k = none) (a : α) :
    make k a ∉ rows := by
  rw [details k a, absent]
  rintro ⟨_, found, _⟩
  cases found

variable [Std.TransOrd κ] [Std.LawfulEqOrd κ] [DecidableEq κ]

/-- What is stored under one key changes with the rows that refer to it. -/
theorem insert (details : Details make has stored rows) (own : ∀ a, make k a ∈ rows' ↔ has v a)
    (others : ∀ k' a, k' ≠ k → (make k' a ∈ rows' ↔ make k' a ∈ rows)) :
    Details make has (stored.insert k v) rows' := by
  intro k' a
  rw [SortedMap.get?_insert]
  split
  · rename_i here
    rw [here, own]
    simp
  · rename_i other
    rw [others k' a other, details k' a]

theorem erase (details : Details make has stored rows) {keepRow : ρ → Bool}
    (picks : ∀ k' a, keepRow (make k' a) = true ↔ k' ≠ k) :
    Details make has (stored.erase k) (rows.filter keepRow) := by
  intro k' a
  rw [List.mem_filter, picks, details k' a, SortedMap.get?_erase]
  split
  · rename_i here
    simp [here]
  · rename_i other
    rw [and_iff_left other]

end Details

end Entitlement
