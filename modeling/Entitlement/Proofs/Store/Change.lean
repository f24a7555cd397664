import Entitlement.Store.Memory

/-!
# Changes of a store

What changes a store can be asked for, as data, and runs of them. A store in memory keeps roles and
entries under their own keys whatever it is asked for (`Memory.run_keyed`).
-/

namespace Entitlement

/-- A change that a store can be asked for. -/
inductive Change where
  | createRole (role : Role)
  | editRole (id : RoleId) (edit : RoleEdit)
  | deleteRole (id : RoleId)
  | addMember (group subject : String)
  | removeMember (group subject : String)
  | addPermission (target : Object) (role : RoleId) (permission : Permission)
  | removePermission (target : Object) (role : RoleId) (permission : Permission)
  | deleteEntriesOf (id : RoleId)
  | setRelation (child : Object) (relation : String) (parent : Object)
  | clearRelation (child : Object) (relation : String)
  | record (event : AuditEvent)
deriving DecidableEq

namespace Change

variable {σ : Type} [Store σ]

/-- The store after the change. -/
def serve (store : σ) : Change → Except Failure σ
  | .createRole role => Store.createRole store role
  | .editRole id edit => (Store.editRole store id edit).map (·.2)
  | .deleteRole id => Store.deleteRole store id
  | .addMember group subject => Store.addMember store group subject
  | .removeMember group subject => Store.removeMember store group subject
  | .addPermission target role permission =>
    (Store.addPermission store target role permission).map (·.2)
  | .removePermission target role permission =>
    (Store.removePermission store target role permission).map (·.2)
  | .deleteEntriesOf id => (Store.deleteEntriesOf store id).map (·.2)
  | .setRelation child relation parent => Store.setRelation store child relation parent
  | .clearRelation child relation => Store.clearRelation store child relation
  | .record event => Store.record store event

/-- The store after some changes; one that fails leaves it as it was. -/
def run (store : σ) (changes : List Change) : σ :=
  changes.foldl (fun store change => (change.serve store).toOption.getD store) store

/-- A part of what a store keeps. -/
inductive Area where
  | roles
  | members
  | entries
  | relations
  | events
deriving DecidableEq

/-- The parts that a change is about. -/
def areas : Change → List Area
  | .createRole _ | .editRole _ _ => [.roles]
  | .deleteRole _ => [.roles, .entries]
  | .addMember _ _ | .removeMember _ _ => [.members]
  | .addPermission _ _ _ | .removePermission _ _ _ | .deleteEntriesOf _ => [.entries]
  | .setRelation _ _ _ | .clearRelation _ _ => [.relations]
  | .record _ => [.events]

theorem run_cons (store : σ) (change : Change) (rest : List Change) :
    run store (change :: rest) = run ((change.serve store).toOption.getD store) rest := rfl

end Change

namespace Memory

/-! ### What a change leaves alone -/

section Frame

variable {m m' : Memory} {target : Object} {role : RoleId} {permission : Permission}

theorem createRole_ok_iff {role : Role} :
    m.createRole role = .ok m' ↔
      (∀ id stored, m.roles.get? id = some stored → stored.label ≠ role.label) ∧
        m' = { m with roles := m.roles.insert role.id role } := by
  unfold createRole
  split
  · rename_i taken
    obtain ⟨stored, mem, same⟩ := List.any_eq_true.mp taken
    obtain ⟨id, found⟩ := SortedMap.mem_values_iff.mp mem
    refine iff_of_false (fun served => by cases served) ?_
    rintro ⟨free, _⟩
    exact free id stored found (beq_iff_eq.mp same)
  · rename_i untaken
    constructor
    · intro served
      cases served
      refine ⟨fun id stored found same => untaken ?_, rfl⟩
      have mem := SortedMap.mem_values_iff.mpr ⟨id, found⟩
      exact List.any_eq_true.mpr ⟨stored, mem, beq_iff_eq.mpr same⟩
    · rintro ⟨_, rfl⟩
      rfl

theorem editRole_ok {id : RoleId} {edit : RoleEdit} {changed : Bool}
    (served : m.editRole id edit = .ok (changed, m')) :
    ∃ role normal, m.roles.get? id = some role ∧ edit.normal = .ok normal ∧
      changed = role.changedBy normal ∧
      m' = { m with roles := m.roles.insert id (role.edit normal) } := by
  unfold editRole at served
  split at served
  · cases served
  · rename_i role found
    cases read : edit.normal with
    | error cause =>
      rw [read] at served
      cases served
    | ok normal =>
      rw [read] at served
      cases served
      exact ⟨role, normal, found, rfl, rfl, rfl⟩

theorem setRelation_ok {child parent : Object} {relation : String}
    (served : m.setRelation child relation parent = .ok m') :
    m' = { m with relations := m.relations.insert ⟨child, relation⟩ parent } := by
  unfold setRelation at served
  split at served
  · cases served
  · cases served
    rfl

theorem addPermission_frame :
    (m.addPermission target role permission).2 =
      { m with
        entries := (m.addPermission target role permission).2.entries
        entriesMade := (m.addPermission target role permission).2.entriesMade } := by
  unfold addPermission
  split <;> rfl

theorem removePermission_frame :
    (m.removePermission target role permission).2 =
      { m with entries := (m.removePermission target role permission).2.entries } := by
  unfold removePermission
  split
  · rfl
  · split
    · dsimp only
      split <;> rfl
    · rfl

/-- The parts that a change is not about are as they were. -/
structure Frame (areas : List Change.Area) (m m' : Memory) : Prop where
  roles : .roles ∉ areas → m'.roles = m.roles
  members : .members ∉ areas → m'.members = m.members
  entries : .entries ∉ areas → m'.entries = m.entries ∧ m'.entriesMade = m.entriesMade
  relations : .relations ∉ areas → m'.relations = m.relations
  events : .events ∉ areas → m'.events = m.events

theorem serve_frame {change : Change} (served : change.serve m = .ok m') :
    Frame change.areas m m' := by
  cases change with
  | createRole role =>
    obtain ⟨_, rfl⟩ := createRole_ok_iff.mp served
    constructor <;> simp [Change.areas]
  | editRole id edit =>
    obtain ⟨⟨_, _⟩, edited, rfl⟩ := map_ok served
    obtain ⟨_, _, _, _, _, rfl⟩ := editRole_ok edited
    constructor <;> simp [Change.areas]
  | addPermission target role permission =>
    have same : (m.addPermission target role permission).2 = m' := Except.ok.inj served
    rw [← same, addPermission_frame]
    constructor <;> simp [Change.areas]
  | removePermission target role permission =>
    have same : (m.removePermission target role permission).2 = m' := Except.ok.inj served
    rw [← same, removePermission_frame]
    constructor <;> simp [Change.areas]
  | setRelation child relation parent =>
    rw [setRelation_ok served]
    constructor <;> simp [Change.areas]
  | deleteRole id | addMember group subject | removeMember group subject | deleteEntriesOf id
  | clearRelation child relation | record event =>
    cases served
    constructor <;> simp [Change.areas, deleteRole, addMember, removeMember, deleteEntriesOf,
      clearRelation, record]

end Frame

/-! ### Requests that change nothing -/

theorem edit_of_not_changed {role : Role} {edit : RoleEdit} (same : role.changedBy edit = false) :
    role.edit edit = role := by
  cases edit with
  | grant permission =>
    have mem : permission ∈ role.permissions := Bool.not_inj (y := true) same
    rw [Role.edit, SortedSet.insert_of_mem mem]
  | revoke permission =>
    have apart : permission ∉ role.permissions := Bool.eq_false_iff.mp same
    rw [Role.edit, SortedSet.erase_of_not_mem apart]
  | attach group =>
    have mem : group ∈ role.groups := Bool.not_inj (y := true) same
    rw [Role.edit, SortedSet.insert_of_mem mem]
  | detach group =>
    have apart : group ∉ role.groups := Bool.eq_false_iff.mp same
    rw [Role.edit, SortedSet.erase_of_not_mem apart]

section Unchanged

variable {m m' : Memory} {target : Object} {role : RoleId} {permission : Permission}

theorem editRole_unchanged {id : RoleId} {edit : RoleEdit}
    (served : m.editRole id edit = .ok (false, m')) : m' = m := by
  obtain ⟨role, normal, found, _, same, rfl⟩ := editRole_ok served
  rw [edit_of_not_changed same.symm, SortedMap.insert_of_get? found]

/-- An outcome without an entry, or with no effect, is of a request that changes nothing. -/
theorem addPermission_unchanged
    (same : (m.addPermission target role permission).1.effect = .unchanged ∨
      (m.addPermission target role permission).1.entry = none) :
    (m.addPermission target role permission).2 = m := by
  unfold addPermission at same ⊢
  split at same
  · rename_i entry found
    dsimp only at same ⊢
    split at same
    · rename_i listed
      have kept : entry.add permission = entry := by
        rw [Entry.add, SortedSet.insert_of_mem listed]
      rw [kept, SortedMap.insert_of_get? found]
    · rcases same with same | same <;> cases same
  · rcases same with same | same <;> cases same

theorem removePermission_unchanged
    (same : (m.removePermission target role permission).1.effect = .unchanged ∨
      (m.removePermission target role permission).1.entry = none) :
    (m.removePermission target role permission).2 = m := by
  unfold removePermission at same ⊢
  split at same
  · rfl
  · split at same
    · dsimp only at same ⊢
      split at same <;> rcases same with same | same <;> cases same
    · rename_i unlisted
      rw [if_neg unlisted]

end Unchanged

/-! ### What becomes of one entry -/

section Entries

variable (m : Memory) (target : Object) (role : RoleId) (permission : Permission)

theorem addPermission_cases :
    (∃ entry, m.entries.get? ⟨target, role⟩ = some entry ∧
      m.addPermission target role permission = (⟨.unchanged, some entry⟩, m)) ∨
    (∃ entry, m.entries.get? ⟨target, role⟩ = some entry ∧
      m.addPermission target role permission = (⟨.edited, some (entry.add permission)⟩,
        { m with entries := m.entries.insert ⟨target, role⟩ (entry.add permission) })) ∨
    (m.entries.get? ⟨target, role⟩ = none ∧ ∃ entry : Entry,
      entry = ⟨.numbered (m.entriesMade + 1), target, role, SortedSet.insert ∅ permission⟩ ∧
      m.addPermission target role permission = (⟨.created, some entry⟩, {
        m with
        entries := m.entries.insert ⟨target, role⟩ entry
        entriesMade := m.entriesMade + 1 })) := by
  unfold addPermission
  split
  · rename_i entry found
    cases lists : entry.lists permission with
    | true =>
      have kept : entry.add permission = entry := by
        rw [Entry.add, SortedSet.insert_of_mem lists]
      exact .inl ⟨entry, found, by simp only [kept, if_true, SortedMap.insert_of_get? found]⟩
    | false => exact .inr (.inl ⟨entry, found, rfl⟩)
  · rename_i absent
    exact .inr (.inr ⟨absent, _, rfl, rfl⟩)

theorem removePermission_cases :
    (∃ entry?, m.removePermission target role permission = (⟨.unchanged, entry?⟩, m)) ∨
    (∃ entry, m.entries.get? ⟨target, role⟩ = some entry ∧
      m.removePermission target role permission = (⟨.edited, some (entry.remove permission)⟩,
        { m with entries := m.entries.insert ⟨target, role⟩ (entry.remove permission) })) ∨
    (∃ entry, m.entries.get? ⟨target, role⟩ = some entry ∧
      m.removePermission target role permission = (⟨.deleted, some (entry.remove permission)⟩,
        { m with entries := m.entries.erase ⟨target, role⟩ })) := by
  unfold removePermission
  split
  · exact .inl ⟨none, rfl⟩
  · rename_i entry found
    split
    · dsimp only
      split
      · exact .inr (.inr ⟨entry, found, rfl⟩)
      · exact .inr (.inl ⟨entry, found, rfl⟩)
    · exact .inl ⟨some entry, rfl⟩

theorem entriesWithout_eq_some {id : RoleId} {key : EntryKey} {entry : Entry} :
    (m.entriesWithout id).get? key = some entry ↔ m.entries.get? key = some entry ∧ key.role ≠ id := by
  rw [entriesWithout, SortedMap.get?_filter, Option.filter_eq_some_iff, decide_eq_true_iff]

theorem deleteRole_eq_some {id other : RoleId} {role : Role} :
    (m.deleteRole id).roles.get? other = some role ↔ m.roles.get? other = some role ∧ other ≠ id := by
  rw [deleteRole, SortedMap.get?_erase]
  split
  · rename_i here
    exact iff_of_false nofun fun ⟨_, differs⟩ => differs here
  · rename_i differs
    exact (and_iff_left differs).symm

/-- Deleting a role finds no more entries to delete once they have been. -/
theorem deleteRole_after_entries (id : RoleId) :
    (m.deleteEntriesOf id).2.deleteRole id = m.deleteRole id := by
  have twice : (m.deleteEntriesOf id).2.entriesWithout id = m.entriesWithout id := by
    refine SortedMap.ext fun key => Option.ext fun entry => ?_
    rw [entriesWithout_eq_some, and_iff_left_of_imp]
    · rfl
    · intro found
      exact ((entriesWithout_eq_some m).mp found).2
  unfold deleteRole
  rw [twice]
  rfl

end Entries

/-! ### Reads -/

theorem mem_rolesOf {m : Memory} {subject : String} {role : Role} :
    role ∈ m.rolesOf subject ↔
      role ∈ m.roles.values ∧ ∃ group ∈ role.groups, subject ∈ m.group group := by
  rw [rolesOf, mem_sortOn, List.mem_filter, isHeldBy, List.any_eq_true]
  constructor
  · rintro ⟨stored, group, mem, member⟩
    exact ⟨stored, group, SortedSet.mem_toList_iff.mp mem, member⟩
  · rintro ⟨stored, group, mem, member⟩
    exact ⟨stored, group, SortedSet.mem_toList_iff.mpr mem, member⟩

theorem mem_grantedObjects {m : Memory} {ids : List RoleId} {permission : Permission}
    {object : Object} :
    object ∈ m.grantedObjects ids permission ↔ ∃ entry ∈ m.entries.values,
      entry.role ∈ ids ∧ entry.lists permission = true ∧ entry.target = object := by
  rw [grantedObjects, SortedSet.mem_ofList, List.mem_map]
  constructor
  · rintro ⟨entry, mem, same⟩
    obtain ⟨stored, fits⟩ := List.mem_filter.mp mem
    rw [Bool.and_eq_true, List.contains_iff_mem] at fits
    exact ⟨entry, stored, fits.1, fits.2, same⟩
  · rintro ⟨entry, stored, role, lists, same⟩
    refine ⟨entry, List.mem_filter.mpr ⟨stored, ?_⟩, same⟩
    rw [Bool.and_eq_true, List.contains_iff_mem]
    exact ⟨role, lists⟩

/-! ### Keys -/

/-- Roles are stored under their identifiers, and entries under their objects and roles. -/
structure Keyed (m : Memory) : Prop where
  roles : ∀ id role, m.roles.get? id = some role → role.id = id
  entries : ∀ key entry, m.entries.get? key = some entry →
    entry.target = key.target ∧ entry.role = key.role

theorem empty_keyed : Keyed ∅ where
  roles := by
    intro id role found
    cases found
  entries := by
    intro key entry found
    cases found

variable {m m' : Memory}

theorem Keyed.mem_roles_iff (keyed : m.Keyed) {role : Role} :
    role ∈ m.roles.values ↔ m.roles.get? role.id = some role := by
  rw [SortedMap.mem_values_iff]
  constructor
  · rintro ⟨id, found⟩
    rw [keyed.roles id role found]
    exact found
  · exact fun found => ⟨role.id, found⟩

theorem Keyed.insert_role (keyed : m.Keyed) (role : Role) :
    ∀ id stored, (m.roles.insert role.id role).get? id = some stored → stored.id = id := by
  intro id stored found
  rw [SortedMap.get?_insert] at found
  split at found
  · rename_i same
    cases found
    exact same.symm
  · exact keyed.roles id stored found

theorem Keyed.insert_entry (keyed : m.Keyed) {key : EntryKey} {entry : Entry}
    (own : entry.target = key.target ∧ entry.role = key.role) :
    ∀ other stored, (m.entries.insert key entry).get? other = some stored →
      stored.target = other.target ∧ stored.role = other.role := by
  intro other stored found
  rw [SortedMap.get?_insert] at found
  split at found
  · rename_i same
    cases found
    rw [same]
    exact own
  · exact keyed.entries other stored found

theorem Keyed.entriesWithout (keyed : m.Keyed) (id : RoleId) :
    ∀ key entry, (m.entriesWithout id).get? key = some entry →
      entry.target = key.target ∧ entry.role = key.role := by
  intro key entry found
  rw [Memory.entriesWithout, SortedMap.get?_filter, Option.filter_eq_some_iff] at found
  exact keyed.entries key entry found.1

theorem Keyed.erase_entry (keyed : m.Keyed) (gone : EntryKey) :
    ∀ key entry, (m.entries.erase gone).get? key = some entry →
      entry.target = key.target ∧ entry.role = key.role := by
  intro key entry found
  rw [SortedMap.get?_erase] at found
  split at found
  · cases found
  · exact keyed.entries key entry found

theorem createRole_keyed (keyed : m.Keyed) {role : Role} (served : m.createRole role = .ok m') :
    m'.Keyed := by
  obtain ⟨_, rfl⟩ := createRole_ok_iff.mp served
  exact ⟨keyed.insert_role role, keyed.entries⟩

theorem edit_id (role : Role) (edit : RoleEdit) : (role.edit edit).id = role.id := by
  cases edit <;> rfl

theorem edit_label (role : Role) (edit : RoleEdit) : (role.edit edit).label = role.label := by
  cases edit <;> rfl

theorem editRole_keyed (keyed : m.Keyed) {id : RoleId} {edit : RoleEdit} {changed : Bool}
    (served : m.editRole id edit = .ok (changed, m')) : m'.Keyed := by
  obtain ⟨role, normal, found, _, _, rfl⟩ := editRole_ok served
  have own : (role.edit normal).id = id := (edit_id role normal).trans (keyed.roles id role found)
  rw [← own]
  exact ⟨keyed.insert_role _, keyed.entries⟩

theorem deleteRole_keyed (keyed : m.Keyed) (id : RoleId) : (m.deleteRole id).Keyed where
  roles := by
    intro other role found
    exact keyed.roles other role ((deleteRole_eq_some m).mp found).1
  entries := keyed.entriesWithout id

theorem addPermission_keyed (keyed : m.Keyed) (target : Object) (role : RoleId)
    (permission : Permission) : (m.addPermission target role permission).2.Keyed := by
  unfold addPermission
  split
  · rename_i entry found
    have own := keyed.entries _ _ found
    exact ⟨keyed.roles, keyed.insert_entry own⟩
  · exact ⟨keyed.roles, keyed.insert_entry ⟨rfl, rfl⟩⟩

theorem removePermission_keyed (keyed : m.Keyed) (target : Object) (role : RoleId)
    (permission : Permission) : (m.removePermission target role permission).2.Keyed := by
  unfold removePermission
  split
  · exact keyed
  · rename_i entry found
    have own := keyed.entries _ _ found
    split
    · dsimp only
      split
      · exact ⟨keyed.roles, keyed.erase_entry _⟩
      · exact ⟨keyed.roles, keyed.insert_entry own⟩
    · exact keyed

theorem serve_keyed (keyed : m.Keyed) {change : Change} (served : change.serve m = .ok m') :
    m'.Keyed := by
  cases change with
  | createRole role => exact createRole_keyed keyed served
  | editRole id edit =>
    obtain ⟨⟨changed, m''⟩, edited, rfl⟩ := map_ok served
    exact editRole_keyed keyed edited
  | deleteRole id =>
    cases served
    exact deleteRole_keyed keyed id
  | addMember group subject | removeMember group subject | clearRelation child relation | record event =>
    cases served
    exact ⟨keyed.roles, keyed.entries⟩
  | addPermission target role permission =>
    cases served
    exact addPermission_keyed keyed target role permission
  | removePermission target role permission =>
    cases served
    exact removePermission_keyed keyed target role permission
  | deleteEntriesOf id =>
    cases served
    exact ⟨keyed.roles, keyed.entriesWithout id⟩
  | setRelation child relation parent =>
    rw [setRelation_ok served]
    exact ⟨keyed.roles, keyed.entries⟩

theorem run_keyed (keyed : m.Keyed) (changes : List Change) : (Change.run m changes).Keyed := by
  induction changes generalizing m with
  | nil => exact keyed
  | cons change rest ih =>
    rw [Change.run_cons]
    cases served : change.serve m with
    | error failure => exact ih keyed
    | ok next => exact ih (serve_keyed keyed served)

end Memory

end Entitlement
