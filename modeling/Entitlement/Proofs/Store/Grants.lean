import Entitlement.Proofs.Store.Change
import Mathlib.Order.BooleanAlgebra.Set

/-!
# Entries as grants

What a store in memory keeps in its entries is a set of grants: of a role, for an object, of a
permission. `Memory.run_represents` says that every change does to the entries what it does to the set,
and that outcomes and reads tell of the set.
-/

namespace Entitlement

/-- A role has a permission on an object. -/
structure Grant where
  target : Object
  role : RoleId
  permission : Permission
deriving DecidableEq

/-- The role has some permission on the object. -/
def Paired (grants : Set Grant) (key : EntryKey) : Prop :=
  ∃ permission, ⟨key.target, key.role, permission⟩ ∈ grants

namespace Change

/-- The grants after a change. -/
def onGrants (grants : Set Grant) : Change → Set Grant
  | .addPermission target role permission => insert ⟨target, role, permission⟩ grants
  | .removePermission target role permission => grants \ {⟨target, role, permission⟩}
  | .deleteRole id | .deleteEntriesOf id => {grant ∈ grants | grant.role ≠ id}
  | _ => grants

/-- The grants after some changes, from none. -/
def grantsAfter (changes : List Change) : Set Grant := changes.foldl onGrants ∅

end Change

/-- What an effect says about the grants of a role on an object before and after. -/
def Effect.Fits (key : EntryKey) (before after : Set Grant) : Effect → Prop
  | .created => ¬ Paired before key ∧ Paired after key
  | .deleted => Paired before key ∧ ¬ Paired after key
  | .edited => before ≠ after ∧ Paired before key ∧ Paired after key
  | .unchanged => before = after

/-- At most one effect fits. -/
theorem Effect.eq_iff_fits {key : EntryKey} {before after : Set Grant} {effect : Effect}
    (fits : effect.Fits key before after) (other : Effect) :
    effect = other ↔ other.Fits key before after := by
  constructor
  · rintro rfl
    exact fits
  · intro fits'
    cases effect <;> cases other <;> simp_all [Fits]

variable {m m' : Memory} {key : EntryKey} {target : Object} {role : RoleId} {permission : Permission}
  {grants after : Set Grant}

namespace Memory

/-- The entry under the key lists the permission. -/
def Lists (m : Memory) (key : EntryKey) (permission : Permission) : Prop :=
  ∃ entry, m.entries.get? key = some entry ∧ permission ∈ entry.permissions

/-- The entries say what the grants do, each entry under its own key and none without permissions. -/
structure Represents (m : Memory) (grants : Set Grant) : Prop where
  own : ∀ key entry, m.entries.get? key = some entry →
    entry.target = key.target ∧ entry.role = key.role
  filled : ∀ key entry, m.entries.get? key = some entry → ∃ permission, permission ∈ entry.permissions
  mem_iff : ∀ target role permission,
    ⟨target, role, permission⟩ ∈ grants ↔ m.Lists ⟨target, role⟩ permission

theorem empty_represents : Represents ∅ ∅ where
  own := empty_keyed.entries
  filled := by
    intro key entry found
    cases found
  mem_iff := by
    intro target role permission
    refine iff_of_false (Set.notMem_empty _) ?_
    rintro ⟨entry, found, _⟩
    cases found

theorem Represents.paired_iff (represents : m.Represents grants) :
    Paired grants key ↔ ∃ entry, m.entries.get? key = some entry := by
  constructor
  · rintro ⟨permission, mem⟩
    obtain ⟨entry, found, _⟩ := (represents.mem_iff _ _ _).mp mem
    exact ⟨entry, found⟩
  · rintro ⟨entry, found⟩
    obtain ⟨permission, mem⟩ := represents.filled key entry found
    exact ⟨permission, (represents.mem_iff _ _ _).mpr ⟨entry, found, mem⟩⟩

theorem Represents.mem_iff_of_found (represents : m.Represents grants) {entry : Entry}
    (found : m.entries.get? ⟨target, role⟩ = some entry) :
    ⟨target, role, permission⟩ ∈ grants ↔ permission ∈ entry.permissions := by
  rw [represents.mem_iff]
  constructor
  · rintro ⟨other, found', mem⟩
    cases found.symm.trans found'
    exact mem
  · exact fun mem => ⟨entry, found, mem⟩

/-- Only what is under one key is replaced, by an entry or by none. -/
theorem Represents.update {slot : Option Entry} (represents : m.Represents grants)
    (look : ∀ k, m'.entries.get? k = if k = ⟨target, role⟩ then slot else m.entries.get? k)
    (own : ∀ entry ∈ slot, entry.target = target ∧ entry.role = role)
    (filled : ∀ entry ∈ slot, ∃ permission, permission ∈ entry.permissions)
    (here : ∀ p, ⟨target, role, p⟩ ∈ after ↔ ∃ entry ∈ slot, p ∈ entry.permissions)
    (elsewhere : ∀ t r p, (⟨t, r⟩ : EntryKey) ≠ ⟨target, role⟩ →
      (⟨t, r, p⟩ ∈ after ↔ ⟨t, r, p⟩ ∈ grants)) :
    m'.Represents after where
  own := by
    intro key entry found
    rw [look] at found
    split at found
    · rename_i same
      rw [same]
      exact own entry found
    · exact represents.own key entry found
  filled := by
    intro key entry found
    rw [look] at found
    split at found
    · exact filled entry found
    · exact represents.filled key entry found
  mem_iff := by
    intro t r p
    unfold Lists
    rw [look]
    split
    · rename_i same
      cases same
      exact here p
    · rename_i other
      exact (elsewhere t r p other).trans (represents.mem_iff t r p)

/-- Every grant of a pair is unaffected by one of another pair. -/
theorem mem_insert_of_ne {t : Object} {r : RoleId} {p : Permission}
    (other : (⟨t, r⟩ : EntryKey) ≠ ⟨target, role⟩) :
    ⟨t, r, p⟩ ∈ insert (⟨target, role, permission⟩ : Grant) grants ↔ ⟨t, r, p⟩ ∈ grants := by
  refine Set.mem_insert_iff.trans (or_iff_right fun same => other ?_)
  cases same
  rfl

theorem mem_sdiff_of_ne {t : Object} {r : RoleId} {p : Permission}
    (other : (⟨t, r⟩ : EntryKey) ≠ ⟨target, role⟩) :
    ⟨t, r, p⟩ ∈ grants \ {(⟨target, role, permission⟩ : Grant)} ↔ ⟨t, r, p⟩ ∈ grants := by
  refine Set.mem_sdiff _ |>.trans (and_iff_left fun same => other ?_)
  cases same
  rfl

end Memory

/-! ### Outcomes -/

/-- The outcome of a change tells what became of the grants of the pair, and of its entry. -/
structure Outcome.Tells (outcome : Outcome) (m m' : Memory) (key : EntryKey)
    (before after : Set Grant) : Prop where
  represents : m'.Represents after
  effect : ∀ effect, outcome.effect = effect ↔ effect.Fits key before after
  none : outcome.entry = none ↔ ¬ Paired before key ∧ ¬ Paired after key
  entry : ∀ entry ∈ outcome.entry, entry.target = key.target ∧ entry.role = key.role ∧
    ∀ permission, permission ∈ entry.permissions ↔ ⟨key.target, key.role, permission⟩ ∈ after
  id : ∀ entry ∈ outcome.entry, ∀ stored ∈ m.entries.get? key, entry.id = stored.id
  stored : Paired after key → m'.entries.get? key = outcome.entry
  others : ∀ k, k ≠ key → m'.entries.get? k = m.entries.get? k

namespace Memory

theorem filter_filled {entry : Entry} (filled : entry.permissions.isEmpty = false) :
    (some entry).filter (! ·.permissions.isEmpty) = some entry := by
  simp [Option.filter, filled]

/-- It is enough that the outcome's entry is the one stored afterwards if it has permissions. -/
theorem Represents.tells {outcome : Outcome} (represents : m.Represents grants)
    (look : ∀ k, m'.entries.get? k = if k = ⟨target, role⟩ then
      outcome.entry.filter (! ·.permissions.isEmpty) else m.entries.get? k)
    (elsewhere : ∀ t r p, (⟨t, r⟩ : EntryKey) ≠ ⟨target, role⟩ →
      (⟨t, r, p⟩ ∈ after ↔ ⟨t, r, p⟩ ∈ grants))
    (none : outcome.entry = none ↔ ¬ Paired grants ⟨target, role⟩ ∧ ¬ Paired after ⟨target, role⟩)
    (entry : ∀ entry ∈ outcome.entry, entry.target = target ∧ entry.role = role ∧
      ∀ permission, permission ∈ entry.permissions ↔ ⟨target, role, permission⟩ ∈ after)
    (id : ∀ entry ∈ outcome.entry, ∀ stored ∈ m.entries.get? ⟨target, role⟩, entry.id = stored.id)
    (fits : outcome.effect.Fits ⟨target, role⟩ grants after) :
    outcome.Tells m m' ⟨target, role⟩ grants after := by
  have kept : Paired after ⟨target, role⟩ →
      outcome.entry.filter (! ·.permissions.isEmpty) = outcome.entry := by
    rintro ⟨permission, mem⟩
    cases returned : outcome.entry with
    | none => rfl
    | some stored =>
      have listed := ((entry stored returned).2.2 permission).mpr mem
      exact filter_filled (SortedSet.isEmpty_eq_false_iff.mpr ⟨permission, listed⟩)
  refine ⟨represents.update look ?_ ?_ ?_ elsewhere, Effect.eq_iff_fits fits, none, entry, id, ?_, ?_⟩
  · intro stored mem
    obtain ⟨own, role, _⟩ := entry stored (Option.mem_filter_iff.mp mem).1
    exact ⟨own, role⟩
  · intro stored mem
    have filled := (Option.mem_filter_iff.mp mem).2
    rw [Bool.not_eq_true'] at filled
    exact SortedSet.isEmpty_eq_false_iff.mp filled
  · intro permission
    constructor
    · intro mem
      have paired : Paired after ⟨target, role⟩ := ⟨permission, mem⟩
      rw [kept paired]
      cases returned : outcome.entry with
      | none => exact absurd paired (none.mp returned).2
      | some stored => exact ⟨stored, rfl, ((entry stored returned).2.2 permission).mpr mem⟩
    · rintro ⟨stored, mem, listed⟩
      exact ((entry stored (Option.mem_filter_iff.mp mem).1).2.2 permission).mp listed
  · intro paired
    rw [look, if_pos rfl, kept paired]
  · intro k other
    rw [look, if_neg other]

theorem Represents.tells_some {effect : Effect} {entry : Entry} (represents : m.Represents grants)
    (look : ∀ k, m'.entries.get? k = if k = ⟨target, role⟩ then
      (some entry).filter (! ·.permissions.isEmpty) else m.entries.get? k)
    (elsewhere : ∀ t r p, (⟨t, r⟩ : EntryKey) ≠ ⟨target, role⟩ →
      (⟨t, r, p⟩ ∈ after ↔ ⟨t, r, p⟩ ∈ grants))
    (own : entry.target = target ∧ entry.role = role)
    (lists : ∀ permission, permission ∈ entry.permissions ↔ ⟨target, role, permission⟩ ∈ after)
    (id : ∀ stored ∈ m.entries.get? ⟨target, role⟩, entry.id = stored.id)
    (paired : Paired grants ⟨target, role⟩ ∨ Paired after ⟨target, role⟩)
    (fits : effect.Fits ⟨target, role⟩ grants after) :
    Outcome.Tells ⟨effect, some entry⟩ m m' ⟨target, role⟩ grants after := by
  apply represents.tells look elsewhere
  · refine iff_of_false (fun none => by cases none) fun apart => ?_
    exact paired.elim apart.1 apart.2
  · intro returned same
    cases same
    exact ⟨own.1, own.2, lists⟩
  · intro returned same
    cases same
    exact id
  · exact fits

theorem addPermission_tells (represents : m.Represents grants) (target : Object) (role : RoleId)
    (permission : Permission) :
    (m.addPermission target role permission).1.Tells m (m.addPermission target role permission).2
      ⟨target, role⟩ grants (insert ⟨target, role, permission⟩ grants) := by
  have paired : Paired (insert ⟨target, role, permission⟩ grants) ⟨target, role⟩ :=
    ⟨permission, Set.mem_insert _ _⟩
  have elsewhere : ∀ t r p, (⟨t, r⟩ : EntryKey) ≠ ⟨target, role⟩ →
      (⟨t, r, p⟩ ∈ insert (⟨target, role, permission⟩ : Grant) grants ↔ ⟨t, r, p⟩ ∈ grants) :=
    fun _ _ _ => mem_insert_of_ne
  unfold addPermission
  split
  · rename_i entry found
    have before : Paired grants ⟨target, role⟩ := represents.paired_iff.mpr ⟨entry, found⟩
    have own : (entry.add permission).target = target ∧ (entry.add permission).role = role :=
      represents.own _ _ found
    apply represents.tells_some ?_ elsewhere own
    · intro p
      rw [Entry.add, SortedSet.mem_insert, Set.mem_insert_iff, represents.mem_iff_of_found found]
      simp
    · intro stored mem
      cases found.symm.trans mem
      rfl
    · exact .inl before
    · split
      · rename_i listed
        have mem : ⟨target, role, permission⟩ ∈ grants := (represents.mem_iff_of_found found).mpr listed
        exact (Set.insert_eq_of_mem mem).symm
      · rename_i unlisted
        refine ⟨fun same => unlisted ?_, before, paired⟩
        have mem : ⟨target, role, permission⟩ ∈ grants := same ▸ Set.mem_insert _ _
        exact (represents.mem_iff_of_found found).mp mem
    · intro k
      rw [filter_filled (SortedSet.isEmpty_insert _ _)]
      exact SortedMap.get?_insert _ _ _ _
  · rename_i absent
    have before : ¬ Paired grants ⟨target, role⟩ := by
      rw [represents.paired_iff, absent]
      simp
    apply represents.tells_some ?_ elsewhere ⟨rfl, rfl⟩
    · intro p
      have others : ⟨target, role, p⟩ ∉ grants := fun mem => before ⟨p, mem⟩
      rw [SortedSet.mem_insert, Set.mem_insert_iff]
      simp [others, SortedSet.not_mem_empty]
    · intro stored mem
      cases absent.symm.trans mem
    · exact .inr paired
    · exact ⟨before, paired⟩
    · intro k
      rw [filter_filled (SortedSet.isEmpty_insert _ _)]
      exact SortedMap.get?_insert _ _ _ _

theorem Represents.tells_unchanged (represents : m.Represents grants)
    (apart : ⟨target, role, permission⟩ ∉ grants) :
    Outcome.Tells ⟨.unchanged, m.entries.get? ⟨target, role⟩⟩ m m ⟨target, role⟩ grants
      (grants \ {⟨target, role, permission⟩}) := by
  rw [Set.sdiff_singleton_eq_self apart]
  apply represents.tells ?_ fun _ _ _ _ => Iff.rfl
  · rw [represents.paired_iff]
    cases m.entries.get? ⟨target, role⟩ <;> simp
  · intro entry found
    obtain ⟨own, held⟩ := represents.own _ _ found
    exact ⟨own, held, fun p => (represents.mem_iff_of_found found).symm⟩
  · intro entry found stored found'
    cases Option.mem_unique found found'
    rfl
  · exact rfl
  · intro k
    split
    · rename_i here
      rw [here]
      cases found : m.entries.get? ⟨target, role⟩ with
      | none => rfl
      | some entry =>
        exact (filter_filled (SortedSet.isEmpty_eq_false_iff.mpr (represents.filled _ _ found))).symm
    · rfl

theorem Represents.mem_remove_iff (represents : m.Represents grants) {entry : Entry}
    (found : m.entries.get? ⟨target, role⟩ = some entry) (p : Permission) :
    p ∈ (entry.remove permission).permissions ↔
      ⟨target, role, p⟩ ∈ grants \ {(⟨target, role, permission⟩ : Grant)} := by
  rw [Entry.remove, SortedSet.mem_erase, Set.mem_sdiff, represents.mem_iff_of_found found]
  simp [and_comm]

theorem Represents.tells_removed {effect : Effect} {entry : Entry} (represents : m.Represents grants)
    (found : m.entries.get? ⟨target, role⟩ = some entry)
    (look : ∀ k, m'.entries.get? k = if k = ⟨target, role⟩ then
      (some (entry.remove permission)).filter (! ·.permissions.isEmpty) else m.entries.get? k)
    (fits : effect.Fits ⟨target, role⟩ grants (grants \ {⟨target, role, permission⟩})) :
    Outcome.Tells ⟨effect, some (entry.remove permission)⟩ m m' ⟨target, role⟩ grants
      (grants \ {⟨target, role, permission⟩}) := by
  have same : ∀ stored ∈ m.entries.get? ⟨target, role⟩, (entry.remove permission).id = stored.id := by
    intro stored mem
    cases found.symm.trans mem
    rfl
  exact represents.tells_some look (fun _ _ _ => mem_sdiff_of_ne) (represents.own _ _ found)
    (represents.mem_remove_iff found) same (.inl (represents.paired_iff.mpr ⟨entry, found⟩)) fits

theorem removePermission_tells (represents : m.Represents grants) (target : Object) (role : RoleId)
    (permission : Permission) :
    (m.removePermission target role permission).1.Tells m
      (m.removePermission target role permission).2 ⟨target, role⟩ grants
      (grants \ {⟨target, role, permission⟩}) := by
  unfold removePermission
  split
  · rename_i absent
    have apart : ⟨target, role, permission⟩ ∉ grants := by
      rw [represents.mem_iff, Lists, absent]
      simp
    have tells := represents.tells_unchanged apart
    rw [absent] at tells
    exact tells
  · rename_i entry found
    have before : Paired grants ⟨target, role⟩ := represents.paired_iff.mpr ⟨entry, found⟩
    split
    · rename_i listed
      have mem : ⟨target, role, permission⟩ ∈ grants := (represents.mem_iff_of_found found).mpr listed
      dsimp only
      split
      · rename_i empty
        refine represents.tells_removed found (fun k => ?_) ⟨before, fun paired => ?_⟩
        · rw [SortedMap.get?_erase]
          simp [Option.filter, empty]
        · obtain ⟨p, still⟩ := paired
          exact SortedSet.isEmpty_iff.mp empty p ((represents.mem_remove_iff found p).mpr still)
      · rename_i filled
        have filled := Bool.eq_false_iff.mpr filled
        obtain ⟨p, still⟩ := SortedSet.isEmpty_eq_false_iff.mp filled
        refine represents.tells_removed found (fun k => ?_) ⟨fun same => ?_, before, p, ?_⟩
        · rw [filter_filled filled]
          exact SortedMap.get?_insert _ _ _ _
        · have gone := same ▸ mem
          exact gone.2 rfl
        · exact (represents.mem_remove_iff found p).mp still
    · rename_i unlisted
      have apart : ⟨target, role, permission⟩ ∉ grants := fun mem =>
        unlisted ((represents.mem_iff_of_found found).mp mem)
      have tells := represents.tells_unchanged apart
      rw [found] at tells
      exact tells

/-! ### Runs -/

theorem Represents.of_entries (represents : m.Represents grants) (same : m'.entries = m.entries) :
    m'.Represents grants where
  own := same ▸ represents.own
  filled := same ▸ represents.filled
  mem_iff := by
    intro target role permission
    rw [represents.mem_iff, Lists, Lists, same]

theorem Represents.without (represents : m.Represents grants) {id : RoleId}
    (same : m'.entries = m.entriesWithout id) :
    m'.Represents {grant ∈ grants | grant.role ≠ id} := by
  have look : ∀ key entry, m'.entries.get? key = some entry ↔
      m.entries.get? key = some entry ∧ key.role ≠ id := by
    intro key entry
    rw [same, entriesWithout, SortedMap.get?_filter, Option.filter_eq_some_iff, decide_eq_true_iff]
  refine ⟨fun key entry found => ?_, fun key entry found => ?_, fun target role permission => ?_⟩
  · exact represents.own key entry ((look key entry).mp found).1
  · exact represents.filled key entry ((look key entry).mp found).1
  · rw [Set.mem_ofPred_eq, represents.mem_iff]
    constructor
    · rintro ⟨⟨entry, found, listed⟩, other⟩
      exact ⟨entry, (look _ entry).mpr ⟨found, other⟩, listed⟩
    · rintro ⟨entry, found, listed⟩
      obtain ⟨found, other⟩ := (look _ entry).mp found
      exact ⟨⟨entry, found, listed⟩, other⟩

theorem serve_represents (represents : m.Represents grants) {change : Change}
    (served : change.serve m = .ok m') : m'.Represents (change.onGrants grants) := by
  cases change with
  | deleteRole id | deleteEntriesOf id =>
    cases served
    exact represents.without rfl
  | addPermission target role permission =>
    cases served
    exact (addPermission_tells represents target role permission).represents
  | removePermission target role permission =>
    cases served
    exact (removePermission_tells represents target role permission).represents
  | _ => exact represents.of_entries ((serve_frame served).entries (by simp [Change.areas])).1

/-- A change that fails is none of the entries. -/
theorem onGrants_of_error {change : Change} {failure : Failure}
    (failed : change.serve m = .error failure) : change.onGrants grants = grants := by
  cases change with
  | createRole role | editRole id edit | setRelation child relation parent => rfl
  | _ => cases failed

theorem run_represents_from (represents : m.Represents grants) (changes : List Change) :
    (Change.run m changes).Represents (changes.foldl Change.onGrants grants) := by
  induction changes generalizing m grants with
  | nil => exact represents
  | cons change rest ih =>
    rw [Change.run_cons, List.foldl_cons]
    cases served : change.serve m with
    | error failure =>
      rw [onGrants_of_error served]
      exact ih represents
    | ok next => exact ih (serve_represents represents served)

/-- An entry that stays keeps its identifier. -/
theorem serve_keeps_id (represents : m.Represents grants) {change : Change}
    (served : change.serve m = .ok m') {entry entry' : Entry}
    (before : m.entries.get? key = some entry) (now : m'.entries.get? key = some entry') :
    entry'.id = entry.id := by
  have of_tells : ∀ {outcome : Outcome} {k : EntryKey} {after : Set Grant},
      outcome.Tells m m' k grants after → entry'.id = entry.id := by
    intro outcome k after tells
    by_cases here : key = k
    · rw [here] at before now
      have returned := (tells.stored (tells.represents.paired_iff.mpr ⟨entry', now⟩)).symm.trans now
      exact tells.id entry' returned entry before
    · rw [tells.others key here] at now
      cases before.symm.trans now
      rfl
  cases change with
  | deleteRole id | deleteEntriesOf id =>
    cases served
    change (m.entriesWithout id).get? key = some entry' at now
    rw [entriesWithout, SortedMap.get?_filter, Option.filter_eq_some_iff] at now
    cases before.symm.trans now.1
    rfl
  | addPermission target role permission =>
    cases served
    exact of_tells (addPermission_tells represents target role permission)
  | removePermission target role permission =>
    cases served
    exact of_tells (removePermission_tells represents target role permission)
  | _ =>
    rw [((serve_frame served).entries (by simp [Change.areas])).1] at now
    cases before.symm.trans now
    rfl

/-! ### Reads -/

theorem Represents.findEntry (represents : m.Represents grants) (target : Object) (role : RoleId) :
    ∃ found, Store.findEntry m target role = .ok found ∧
      (found = none ↔ ¬ Paired grants ⟨target, role⟩) ∧
      ∀ entry ∈ found, entry.target = target ∧ entry.role = role ∧
        ∀ permission, permission ∈ entry.permissions ↔ ⟨target, role, permission⟩ ∈ grants := by
  refine ⟨m.entries.get? ⟨target, role⟩, rfl, ?_, fun entry found => ?_⟩
  · rw [represents.paired_iff]
    cases m.entries.get? ⟨target, role⟩ <;> simp
  · obtain ⟨own, held⟩ := represents.own _ _ found
    exact ⟨own, held, fun permission => (represents.mem_iff_of_found found).symm⟩

theorem Represents.entriesOn (represents : m.Represents grants) (target : Object) :
    ∃ listed, Store.entriesOn m target = .ok listed ∧
      listed.Pairwise (fun first second => compare first.role second.role = .lt) ∧
      ∀ entry, entry ∈ listed ↔ Store.findEntry m target entry.role = .ok (some entry) := by
  refine ⟨m.entriesOn target, rfl, ?_, fun entry => ?_⟩
  · rw [Memory.entriesOn, SortedMap.values, List.pairwise_filter, List.pairwise_map]
    refine m.entries.sorted.imp_of_mem fun {first second} mem mem' less on on' => ?_
    obtain ⟨own, held⟩ := represents.own _ _ (SortedMap.mem_toList_iff.mp mem)
    obtain ⟨own', held'⟩ := represents.own _ _ (SortedMap.mem_toList_iff.mp mem')
    have same : first.1.target = second.1.target := by
      rw [← own, ← own', beq_iff_eq.mp on, beq_iff_eq.mp on']
    rw [held, held']
    change compareLex (compareOn EntryKey.target) (compareOn EntryKey.role) first.1 second.1 = .lt at less
    simpa [compareLex, compareOn, same] using less
  · rw [Memory.entriesOn, List.mem_filter, SortedMap.mem_values_iff, beq_iff_eq]
    constructor
    · rintro ⟨⟨key, found⟩, on⟩
      obtain ⟨own, held⟩ := represents.own key entry found
      change Except.ok (m.entries.get? ⟨target, entry.role⟩) = _
      rw [← on, own, held]
      exact congrArg Except.ok found
    · intro read
      have found : m.entries.get? ⟨target, entry.role⟩ = some entry := Except.ok.inj read
      exact ⟨⟨_, found⟩, (represents.own _ _ found).1⟩

theorem Represents.grantedObjects (represents : m.Represents grants) (roles : List RoleId)
    (permission : Permission) :
    ∃ objects, Store.grantedObjects m roles permission = .ok objects ∧
      ∀ target, target ∈ objects ↔ ∃ role ∈ roles, ⟨target, role, permission⟩ ∈ grants := by
  refine ⟨m.grantedObjects roles permission, rfl, fun target => ?_⟩
  rw [mem_grantedObjects]
  constructor
  · rintro ⟨entry, mem, among, listed, rfl⟩
    obtain ⟨key, found⟩ := SortedMap.mem_values_iff.mp mem
    obtain ⟨own, held⟩ := represents.own key entry found
    refine ⟨entry.role, among, ?_⟩
    rw [own, held]
    exact (represents.mem_iff _ _ _).mpr ⟨entry, found, listed⟩
  · rintro ⟨role, among, mem⟩
    obtain ⟨entry, found, listed⟩ := (represents.mem_iff _ _ _).mp mem
    obtain ⟨own, held⟩ := represents.own _ entry found
    exact ⟨entry, SortedMap.mem_values_iff.mpr ⟨_, found⟩, held ▸ among, listed, own⟩

/-- After any changes the entries of a store in memory are the grants that the changes leave. Adding and
removing a permission does so to one grant and to no other entry, and tells what it did; whatever is
asked for, entries that stay keep their identifiers; and reads answer from the grants. -/
theorem run_represents (changes : List Change) :
    let m : Memory := Change.run ∅ changes
    let grants := Change.grantsAfter changes
    m.Represents grants ∧
    (∀ target role permission,
      (m.addPermission target role permission).1.Tells m (m.addPermission target role permission).2
        ⟨target, role⟩ grants (insert ⟨target, role, permission⟩ grants) ∧
      (m.removePermission target role permission).1.Tells m
        (m.removePermission target role permission).2 ⟨target, role⟩ grants
        (grants \ {⟨target, role, permission⟩})) ∧
    (∀ (change : Change) (m' : Memory) (key : EntryKey) (entry entry' : Entry),
      change.serve m = .ok m' → m.entries.get? key = some entry →
        m'.entries.get? key = some entry' → entry'.id = entry.id) ∧
    (∀ target role, ∃ found, Store.findEntry m target role = .ok found ∧
      (found = none ↔ ¬ Paired grants ⟨target, role⟩) ∧
      ∀ entry ∈ found, entry.target = target ∧ entry.role = role ∧
        ∀ permission, permission ∈ entry.permissions ↔ ⟨target, role, permission⟩ ∈ grants) ∧
    (∀ target, ∃ listed, Store.entriesOn m target = .ok listed ∧
      listed.Pairwise (fun first second => compare first.role second.role = .lt) ∧
      ∀ entry, entry ∈ listed ↔ Store.findEntry m target entry.role = .ok (some entry)) ∧
    ∀ roles permission, ∃ objects, Store.grantedObjects m roles permission = .ok objects ∧
      ∀ target, target ∈ objects ↔ ∃ role ∈ roles, ⟨target, role, permission⟩ ∈ grants := by
  intro m grants
  have represents : m.Represents grants := run_represents_from empty_represents changes
  refine ⟨represents, fun target role permission => ?_, fun change m' key entry entry' served => ?_,
    represents.findEntry, represents.entriesOn, represents.grantedObjects⟩
  · exact ⟨addPermission_tells represents target role permission,
      removePermission_tells represents target role permission⟩
  · exact serve_keeps_id represents served

end Memory

end Entitlement
