import Entitlement.Proofs.Store.Decode
import Entitlement.Proofs.Store.Relations

/-!
# Entries and relations in tables

The entries of a store in memory and the rows of a relational store are the same (`SameEntries`) if
each entry has one row, under its own number, and its permissions are listed under that number. An
entry is then read back from its row, and what is done to the entries in memory keeps them the same
when the like is done to the rows. Relations and their rows are compared in the same way
(`SameRelations`); the same objects are to be had over both.
-/

namespace Entitlement

open Text
open Relation (ReflTransGen)

/-! ### Rows of entries -/

/-- The number under which its store made an entry. -/
def Entry.number (entry : Entry) : Nat :=
  match entry.id with
  | .numbered n => n
  | .given _ => 0

def EntryKey.row (key : EntryKey) (entry : Entry) : EntryRow :=
  ⟨entry.number, key.target.model.toText, key.target.key, key.role⟩

theorem EntryKey.row_isOn {key : EntryKey} {entry : Entry} {target : Object} :
    (key.row entry).isOn target = true ↔ key.target = target := by
  rw [EntryRow.isOn, Bool.and_eq_true, beq_iff_eq, beq_iff_eq, ← Prod.mk.injEq]
  exact Object.texts_injective.eq_iff

theorem EntryKey.row_is {key : EntryKey} {entry : Entry} {target : Object} {role : RoleId} :
    ((key.row entry).isOn target && (key.row entry).role == role) = true ↔ key = ⟨target, role⟩ := by
  rw [Bool.and_eq_true, row_isOn, beq_iff_eq, EntryKey.mk.injEq]
  exact Iff.rfl

/-- An entry as a store that has made so many keeps it under its key. -/
structure Entry.Kept (made : Nat) (key : EntryKey) (entry : Entry) : Prop where
  target : entry.target = key.target
  role : entry.role = key.role
  id : entry.id = .numbered entry.number
  number_le : entry.number ≤ made
  filled : allBlank key.target.key = false

/-- The permissions listed under the number of the entry are its own. -/
def Entry.ListedIn (listed : List EntryPermissionRow) (entry : Entry) : Prop :=
  ∀ text, ⟨entry.number, text⟩ ∈ listed ↔ ∃ p ∈ entry.permissions, p.toText = text

theorem Entry.ListedIn.contains {listed : List EntryPermissionRow} {entry : Entry}
    (own : entry.ListedIn listed) (permission : Permission) :
    listed.contains ⟨entry.number, permission.toText⟩ = entry.lists permission := by
  rw [Bool.eq_iff_iff, List.contains_iff_mem, own]
  constructor
  · rintro ⟨p, mem, same⟩
    exact Permission.toText_injective same ▸ mem
  · intro mem
    exact ⟨permission, mem, rfl⟩

theorem Entry.ListedIn.add {listed listed' : List EntryPermissionRow} {entry : Entry}
    (own : entry.ListedIn listed) (permission : Permission)
    (now : ∀ row, row ∈ listed' ↔ row ∈ listed ∨ row = ⟨entry.number, permission.toText⟩) :
    (entry.add permission).ListedIn listed' := by
  intro text
  change (⟨entry.number, text⟩ ∈ listed') ↔ _
  rw [now, own, EntryPermissionRow.mk.injEq, and_iff_right rfl]
  exact exists_toText_insert.symm

theorem Entry.ListedIn.remove {listed listed' : List EntryPermissionRow} {entry : Entry}
    (own : entry.ListedIn listed) (permission : Permission)
    (now : ∀ row, row ∈ listed' ↔ row ∈ listed ∧ row ≠ ⟨entry.number, permission.toText⟩) :
    (entry.remove permission).ListedIn listed' := by
  intro text
  change (⟨entry.number, text⟩ ∈ listed') ↔ _
  rw [now, own, ne_eq, EntryPermissionRow.mk.injEq, and_iff_right rfl]
  exact exists_toText_erase.symm

theorem Database.readEntry_ok {db : Database} {made : Nat} {key : EntryKey} {entry : Entry}
    (kept : entry.Kept made key) (own : entry.ListedIn db.entryPermissions) :
    db.readEntry (key.row entry) = .ok entry := by
  have written (text : String) :
      text ∈ (SortedSet.ofList ((db.entryPermissions.filter
        (·.entry == (key.row entry).number)).map (·.permission))).toList ↔
      ∃ p ∈ entry.permissions, p.toText = text := by
    rw [SortedSet.mem_toList_iff, SortedSet.mem_ofList, ← own text]
    exact mem_map_filter EntryPermissionRow.mk (fun _ => rfl) (fun _ _ => ⟨rfl, rfl⟩)
  have object : decodeObject (key.row entry).model (key.row entry).key = .ok key.target :=
    decodeObject_toText kept.filled
  unfold readEntry
  dsimp only
  rw [object, decodePermissions_eq written]
  refine congrArg Except.ok ?_
  obtain ⟨id, target, role, permissions⟩ := entry
  exact Entry.mk.injEq .. ▸ ⟨kept.id.symm, kept.target.symm, kept.role.symm, rfl⟩

/-! ### The same entries -/

/-- The entries of a store that has made so many are those of the rows. -/
structure SameEntries (made : Nat) (stored : SortedMap EntryKey Entry) (rows : List EntryRow)
    (listed : List EntryPermissionRow) : Prop where
  tabulated : Tabulates EntryKey.row stored rows
  kept : ∀ key entry, stored.get? key = some entry → entry.Kept made key
  /-- No two entries have one number. -/
  apart : ∀ key key' entry entry', stored.get? key = some entry → stored.get? key' = some entry' →
    entry.number = entry'.number → key = key'
  lists : ∀ key entry, stored.get? key = some entry → entry.ListedIn listed
  /-- Nothing is listed under a number that is still to be given. -/
  past : ∀ row ∈ listed, row.entry ≤ made

namespace SameEntries

variable {made : Nat} {stored : SortedMap EntryKey Entry} {rows : List EntryRow}
  {listed listed' : List EntryPermissionRow} {key : EntryKey} {entry : Entry}

theorem empty (made : Nat) : SameEntries made ∅ [] [] where
  tabulated := .empty
  kept _ _ found := nomatch found
  apart _ _ _ _ found := nomatch found
  lists _ _ found := nomatch found
  past _ mem := nomatch mem

theorem find? (same : SameEntries made stored rows listed) (target : Object) (role : RoleId) :
    (rows.find? fun row => row.isOn target && row.role == role) =
      (stored.get? ⟨target, role⟩).map (EntryKey.row ⟨target, role⟩) :=
  same.tabulated.find? fun _ _ => EntryKey.row_is

/-- An entry may list other permissions, if nothing else is listed otherwise. -/
theorem update (same : SameEntries made stored rows listed) (found : stored.get? key = some entry)
    {permissions : SortedSet Permission} (own : Entry.ListedIn listed' { entry with permissions })
    (others : ∀ row : EntryPermissionRow, row.entry ≠ entry.number → (row ∈ listed' ↔ row ∈ listed)) :
    SameEntries made (stored.insert key { entry with permissions }) rows listed' where
  tabulated := same.tabulated.replace found rfl
  kept := SortedMap.forall_insert { same.kept key entry found with } fun key' entry' found' _ =>
    same.kept key' entry' found'
  apart := by
    have origin {key' : EntryKey} {entry' : Entry}
        (found' : (stored.insert key { entry with permissions }).get? key' = some entry') :
        ∃ before, stored.get? key' = some before ∧ before.number = entry'.number := by
      rw [SortedMap.get?_insert] at found'
      split at found'
      · rename_i here
        cases found'
        exact ⟨entry, here ▸ found, rfl⟩
      · exact ⟨entry', found', rfl⟩
    intro key₁ key₂ entry₁ entry₂ found₁ found₂ numbers
    obtain ⟨before₁, found₁, number₁⟩ := origin found₁
    obtain ⟨before₂, found₂, number₂⟩ := origin found₂
    exact same.apart _ _ _ _ found₁ found₂ (number₁.trans (numbers.trans number₂.symm))
  lists := by
    refine SortedMap.forall_insert own fun key' entry' found' other text => ?_
    have apart : entry'.number ≠ entry.number :=
      fun numbers => other (same.apart _ _ _ _ found' found numbers)
    rw [others ⟨entry'.number, text⟩ apart]
    exact same.lists key' entry' found' text
  past row mem := by
    by_cases here : row.entry = entry.number
    · rw [here]
      exact (same.kept key entry found).number_le
    · exact same.past row ((others row here).mp mem)

/-- A new entry gets the next number. -/
theorem create (same : SameEntries made stored rows listed) (absent : stored.get? key = none)
    (filled : allBlank key.target.key = false) (permission : Permission) :
    SameEntries (made + 1)
      (stored.insert key
        ⟨.numbered (made + 1), key.target, key.role, SortedSet.insert ∅ permission⟩)
      (rows ++ [⟨made + 1, key.target.model.toText, key.target.key, key.role⟩])
      (listed ++ [⟨made + 1, permission.toText⟩]) where
  tabulated := same.tabulated.insert absent _
  kept := by
    refine SortedMap.forall_insert ⟨rfl, rfl, rfl, Nat.le_refl _, filled⟩ ?_
    intro key' entry' found' _
    have kept := same.kept key' entry' found'
    exact { kept with number_le := Nat.le_succ_of_le kept.number_le }
  apart := by
    have fresh {key' : EntryKey} {entry' : Entry} (found' : stored.get? key' = some entry') :
        entry'.number ≠ made + 1 := by
      have bound := (same.kept key' entry' found').number_le
      omega
    intro key₁ key₂ entry₁ entry₂ found₁ found₂ numbers
    rw [SortedMap.get?_insert] at found₁ found₂
    split at found₁ <;> split at found₂
    · rename_i here₁ here₂
      exact here₁.trans here₂.symm
    · cases found₁
      exact absurd numbers.symm (fresh found₂)
    · cases found₂
      exact absurd numbers (fresh found₁)
    · exact same.apart _ _ _ _ found₁ found₂ numbers
  lists := by
    apply SortedMap.forall_insert
    · -- nothing was listed under the number before
      intro text
      change (⟨made + 1, text⟩ ∈ listed ++ _) ↔ _
      rw [exists_toText_insert, List.mem_append, List.mem_singleton, EntryPermissionRow.mk.injEq,
        and_iff_right rfl]
      apply or_congr_left
      apply iff_of_false
      · intro mem
        exact Nat.not_succ_le_self made (same.past _ mem)
      · rintro ⟨p, mem, _⟩
        exact SortedSet.not_mem_empty p mem
    · intro key' entry' found' _ text
      have bound := (same.kept key' entry' found').number_le
      rw [List.mem_append, List.mem_singleton, EntryPermissionRow.mk.injEq,
        or_iff_left (fun here => by omega)]
      exact same.lists key' entry' found' text
  past row mem := by
    rcases List.mem_append.mp mem with mem | mem
    · exact Nat.le_succ_of_le (same.past row mem)
    · obtain rfl := List.mem_singleton.mp mem
      exact Nat.le_refl _

/-- Some entries are kept, and with them the permissions listed in them. -/
theorem keep (same : SameEntries made stored rows listed) {keep : EntryKey → Bool}
    {keepRow : EntryRow → Bool}
    (picks : ∀ key entry, stored.get? key = some entry → keepRow (key.row entry) = keep key) :
    SameEntries made (stored.filter fun key _ => keep key) (rows.filter keepRow)
      (listed.filter fun row =>
        ! ((rows.filter (! keepRow ·)).map (·.number)).contains row.entry) := by
  have origin {key : EntryKey} {entry : Entry}
      (found : (stored.filter fun key _ => keep key).get? key = some entry) :
      stored.get? key = some entry ∧ keep key = true := by
    rw [SortedMap.get?_filter] at found
    exact Option.filter_eq_some_iff.mp found
  refine ⟨same.tabulated.filter _ _ picks, ?_, ?_, ?_, ?_⟩
  · intro key entry found
    exact same.kept key entry (origin found).1
  · intro key₁ key₂ entry₁ entry₂ found₁ found₂
    exact same.apart _ _ _ _ (origin found₁).1 (origin found₂).1
  · intro key entry found text
    obtain ⟨found, stays⟩ := origin found
    -- the rows that go have other numbers
    have here : ! ((rows.filter (! keepRow ·)).map (·.number)).contains entry.number := by
      rw [Bool.not_eq_true', ← Bool.not_eq_true, List.contains_iff_mem, List.mem_map]
      rintro ⟨row, mem, number⟩
      obtain ⟨mem, goes⟩ := List.mem_filter.mp mem
      obtain ⟨key', entry', found', rfl⟩ := same.tabulated.mem_iff.mp mem
      rw [picks key' entry' found', same.apart _ _ _ _ found' found number, stays] at goes
      cases goes
    rw [List.mem_filter, and_iff_left here]
    exact same.lists key entry found text
  · intro row mem
    exact same.past row (List.mem_filter.mp mem).1

end SameEntries

/-! ### The same relations -/

def RelationKey.row (key : RelationKey) (parent : Object) : RelationRow :=
  ⟨key.child.model.toText, key.child.key, key.relation, parent.model.toText, parent.key⟩

theorem RelationKey.row_isOf {key : RelationKey} {parent child : Object} {relation : String} :
    (key.row parent).isOf child relation = true ↔ key = ⟨child, relation⟩ := by
  rw [RelationRow.isOf, Bool.and_eq_true, Bool.and_eq_true, beq_iff_eq, beq_iff_eq, beq_iff_eq,
    ← Prod.mk.injEq, RelationKey.mk.injEq]
  exact and_congr_left' Object.texts_injective.eq_iff

/-- The relations are those of the rows, and lead to objects with keys that are not blank. -/
structure SameRelations (stored : SortedMap RelationKey Object) (rows : List RelationRow) : Prop where
  tabulated : Tabulates RelationKey.row stored rows
  filled : ∀ key parent, stored.get? key = some parent → allBlank parent.key = false

namespace SameRelations

variable {stored : SortedMap RelationKey Object} {rows : List RelationRow}

theorem empty : SameRelations ∅ [] where
  tabulated := .empty
  filled _ _ found := nomatch found

theorem find? (same : SameRelations stored rows) (child : Object) (relation : String) :
    rows.find? (·.isOf child relation) =
      (stored.get? ⟨child, relation⟩).map (RelationKey.row ⟨child, relation⟩) :=
  same.tabulated.find? fun _ _ => RelationKey.row_isOf

theorem clear (same : SameRelations stored rows) (child : Object) (relation : String) :
    SameRelations (stored.erase ⟨child, relation⟩) (rows.filter (! ·.isOf child relation)) where
  tabulated := by
    apply same.tabulated.erase
    intro key parent
    rw [Bool.not_eq_true', ← Bool.not_eq_true, RelationKey.row_isOf]
  filled := SortedMap.forall_erase same.filled

theorem set (same : SameRelations stored rows) (child : Object) (relation : String)
    {parent : Object} (filled : allBlank parent.key = false) :
    SameRelations (stored.insert ⟨child, relation⟩ parent)
      (rows.filter (! ·.isOf child relation) ++ [RelationKey.row ⟨child, relation⟩ parent]) where
  tabulated := by
    rw [← SortedMap.insert_erase]
    exact (same.clear child relation).tabulated.insert (SortedMap.get?_erase_self _ _) parent
  filled := SortedMap.forall_insert filled fun key parent found _ => same.filled key parent found

theorem mem_links_iff {db : Database} (same : SameRelations stored db.relations)
    {first second : String × String} :
    (first, second) ∈ db.links ↔
      ∃ child parent, Leads stored child parent ∧ child.texts = first ∧ parent.texts = second := by
  rw [Database.links, List.mem_map]
  constructor
  · rintro ⟨row, mem, link⟩
    obtain ⟨key, parent, found, rfl⟩ := same.tabulated.mem_iff.mp mem
    obtain ⟨rfl, rfl⟩ := Prod.mk.inj link
    exact ⟨key.child, parent, ⟨key.relation, found⟩, rfl, rfl⟩
  · rintro ⟨child, parent, ⟨relation, found⟩, rfl, rfl⟩
    exact ⟨_, same.tabulated.mem_iff.mpr ⟨⟨child, relation⟩, parent, found, rfl⟩, rfl⟩

theorem reaches_links {db : Database} {m : Memory} (same : SameRelations m.relations db.relations)
    (start goal : Object) :
    reaches db.links start.texts goal.texts = reaches m.links start goal := by
  rw [Bool.eq_iff_iff, reaches_iff, Memory.reaches_links_iff]
  constructor
  · intro way
    -- every node on a way over the rows is that of an object
    generalize last : goal.texts = node at way
    induction way generalizing goal with
    | refl => rw [Object.texts_injective last]
    | tail _ link ih =>
      obtain ⟨child, parent, leads, rfl, second⟩ := same.mem_links_iff.mp link
      rw [Object.texts_injective (last.trans second.symm)]
      exact (ih child rfl).tail leads
  · intro way
    refine ReflTransGen.lift Object.texts (fun child parent leads => ?_) _ _ way
    exact same.mem_links_iff.mpr ⟨child, parent, leads, rfl, rfl⟩

end SameRelations

end Entitlement
