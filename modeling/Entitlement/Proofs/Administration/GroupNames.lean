import Entitlement.Proofs.Administration.Integrity
import Entitlement.Proofs.Store.RoleTables

/-!
# Which group a name is of

Members are put into groups and taken out of them, and groups attached to stored roles and detached,
under names without white space around them. Members are listed, and groups taken from a role by itself,
under names as they stand, and so these requests agree with the others only on names without white
space around them (`Site.group_requests_agree_iff`).
-/

namespace Entitlement

open Text (trim)

/-! ### Edits -/

/-- Edits a role by itself, and says whether that changes it. -/
def Role.tryEdit (role : Role) (edit : RoleEdit) : Except Malformed (Bool × Role) :=
  edit.normal.map fun edit => (role.changedBy edit, role.edit edit)

/-- What a store does to a stored role is what is done to a role by itself. -/
theorem Memory.editRole_of_stored {m : Memory} {id : RoleId} {role : Role}
    (stored : m.roles.get? id = some role) (edit : RoleEdit) :
    m.editRole id edit = (refused (role.tryEdit edit)).map fun (changed, role) =>
      (changed, { m with roles := m.roles.insert id role }) := by
  unfold editRole Role.tryEdit
  rw [stored]
  cases edit.normal <;> rfl

theorem groupName_trim {group name : String} (read : groupName group = .ok name) :
    name = trim group :=
  (Text.filledText_ok read).2

/-- A group just attached is detached under its name as it stands exactly if that is how it is stored. -/
theorem Role.detach_attached_iff {role attached : Role} {changed : Bool} {group : String}
    (ran : role.tryEdit (.attach group) = .ok (changed, attached)) :
    ∃ removed detached, attached.tryEdit (.detach group) = .ok (removed, detached) ∧
      (removed = true ∧ trim group ∉ detached.groups ↔ trim group = group) := by
  obtain ⟨edit, read, same⟩ := map_ok ran
  obtain ⟨name, named, rfl⟩ := map_ok read
  obtain rfl := groupName_trim named
  cases same
  refine ⟨_, _, rfl, ?_⟩
  constructor
  · rintro ⟨_, gone⟩
    refine Classical.byContradiction fun spaced => gone ?_
    exact SortedSet.mem_erase.mpr ⟨spaced, SortedSet.mem_insert.mpr (.inl rfl)⟩
  · intro plain
    have attached : group ∈ role.groups.insert (trim group) :=
      SortedSet.mem_insert.mpr (.inl plain.symm)
    refine ⟨attached, fun left => ?_⟩
    exact (SortedSet.mem_erase.mp left).1 plain

namespace Site

variable {site after : Site Memory} {actor lister : User} {group subject : String} {id : RoleId}
  {role : Role}

/-- A role is edited in its stored form, and given as it is stored afterwards. -/
theorem editRole_ok {edit : RoleEdit} (ran : editRole actor id edit site = (.ok role, after)) :
    ∃ (stored : Role) (normal : RoleEdit), edit.normal = .ok normal ∧ role = stored.edit normal ∧
      after.store.roles.get? id = some role := by
  obtain ⟨stored, _, looked, ran⟩ := Attempt.bind_eq_ok.mp ran
  obtain ⟨read, rfl⟩ := Attempt.look_ok looked
  obtain ⟨_, _, looked, ran⟩ := Attempt.bind_eq_ok.mp ran
  obtain ⟨_, rfl⟩ := Attempt.look_ok looked
  obtain ⟨changed, _, edited, ran⟩ := Attempt.bind_eq_ok.mp ran
  rcases change_run fun store => Store.editRole store id edit with
    ⟨failure, refused⟩ | ⟨_, m, served, done⟩
  · cases refused.symm.trans edited
  cases done.symm.trans edited
  have alone := Memory.editRole_of_stored (role_ok_iff.mp read) edit
  obtain ⟨⟨_, _⟩, tried, same⟩ := map_ok (alone.symm.trans served)
  cases same
  obtain ⟨normal, named, made⟩ := map_ok (refused_ok tried)
  cases made
  refine ⟨stored, normal, named, ?_⟩
  have put : (site.store.roles.insert id (stored.edit normal)).get? id = some (stored.edit normal) :=
    SortedMap.get?_insert_self ..
  cases changes : stored.changedBy normal with
  | false =>
    rw [changes] at ran
    cases ran
    rw [Memory.edit_of_not_changed changes] at put ⊢
    exact ⟨rfl, put⟩
  | true =>
    rw [changes] at ran
    obtain ⟨again, _, looked, ran⟩ := Attempt.bind_eq_ok.mp ran
    obtain ⟨reread, rfl⟩ := Attempt.look_ok looked
    cases ran
    have found := role_ok_iff.mp reread
    exact ⟨Option.some.inj (found.symm.trans put), found⟩

theorem listMembers_ok (allowed : site.requireEverywhere lister viewRoles = .ok ()) :
    site.listMembers lister group = .ok (site.store.group group).toList := by
  unfold listMembers
  rw [allowed]
  rfl

/-- Of a stored role, who has it through the members of its groups. -/
theorem mem_rolesOf_of_stored (stored : site.store.roles.get? id = some role) :
    role ∈ site.store.rolesOf subject ↔
      ∃ group ∈ role.groups, subject ∈ site.store.group group := by
  rw [Memory.mem_rolesOf]
  exact and_iff_right (SortedMap.mem_values_iff.mpr ⟨id, stored⟩)

theorem attachGroup_ok (ran : attachGroup actor id group site = (.ok role, after)) :
    after.store.roles.get? id = some role ∧ trim group ∈ role.groups := by
  obtain ⟨name, _, looked, ran⟩ := Attempt.bind_eq_ok.mp ran
  obtain ⟨read, rfl⟩ := Attempt.look_ok looked
  obtain rfl := groupName_trim (refused_ok read)
  obtain ⟨before, normal, named, rfl, stored⟩ := editRole_ok ran
  obtain ⟨name, read, rfl⟩ := map_ok named
  rw [groupName_trim read, Text.trim_trim] at stored ⊢
  exact ⟨stored, SortedSet.mem_insert.mpr (.inl rfl)⟩

theorem detachGroup_ok (ran : detachGroup actor id group site = (.ok role, after)) :
    after.store.roles.get? id = some role ∧ trim group ∉ role.groups := by
  obtain ⟨before, normal, named, rfl, stored⟩ := editRole_ok ran
  cases named
  exact ⟨stored, fun left => (SortedSet.mem_erase.mp left).1 rfl⟩

theorem addMember_ok (ran : addMember actor group subject site = (.ok (), after)) {name member : String} :
    member ∈ after.store.group name ↔
      (name = trim group ∧ member = trim subject) ∨ member ∈ site.store.group name := by
  obtain ⟨_, _, looked, ran⟩ := Attempt.bind_eq_ok.mp ran
  obtain ⟨_, rfl⟩ := Attempt.look_ok looked
  obtain ⟨_, _, looked, ran⟩ := Attempt.bind_eq_ok.mp ran
  obtain ⟨read, rfl⟩ := Attempt.look_ok looked
  obtain ⟨_, named, called⟩ := membership_ok read
  cases ran
  rw [← named, ← called]
  exact Memory.mem_group_addMember

theorem removeMember_ok (ran : removeMember actor group subject site = (.ok (), after))
    {name member : String} :
    member ∈ after.store.group name ↔
      member ∈ site.store.group name ∧ ¬ (name = trim group ∧ member = trim subject) := by
  obtain ⟨_, _, looked, ran⟩ := Attempt.bind_eq_ok.mp ran
  obtain ⟨_, rfl⟩ := Attempt.look_ok looked
  obtain ⟨_, _, looked, ran⟩ := Attempt.bind_eq_ok.mp ran
  obtain ⟨read, rfl⟩ := Attempt.look_ok looked
  obtain ⟨_, named, called⟩ := membership_ok read
  cases ran
  rw [← named, ← called]
  exact Memory.mem_group_removeMember

/-- Once a subject is in a group, or out of it, listing the group under the same text shows so exactly if
the text has no white space around it, or what is stored under the text as it stands showed so before.
Likewise a role by itself loses a group under the text it was given it by. Stored roles are given to the
members of a group, and taken from them, under any text. -/
theorem group_requests_agree_iff (site : Site Memory) (actor lister : User) (group subject : String) :
    (∀ after, addMember actor group subject site = (.ok (), after) →
      after.requireEverywhere lister viewRoles = .ok () →
      ∃ subjects, after.listMembers lister group = .ok subjects ∧
        (trim subject ∈ subjects ↔ trim group = group ∨ trim subject ∈ site.store.group group)) ∧
    (∀ after, removeMember actor group subject site = (.ok (), after) →
      after.requireEverywhere lister viewRoles = .ok () →
      ∃ subjects, after.listMembers lister group = .ok subjects ∧
        (trim subject ∉ subjects ↔ trim group = group ∨ trim subject ∉ site.store.group group)) ∧
    (∀ id role after, attachGroup actor id group site = (.ok role, after) →
      after.store.roles.get? id = some role ∧
        ∀ member ∈ after.store.group (trim group), role ∈ after.store.rolesOf member) ∧
    (∀ id role after, detachGroup actor id group site = (.ok role, after) →
      after.store.roles.get? id = some role ∧ ∀ member, role ∈ after.store.rolesOf member →
        ∃ other ∈ role.groups, other ≠ trim group ∧ member ∈ after.store.group other) ∧
    ∀ (role attached : Role) (changed : Bool), role.tryEdit (.attach group) = .ok (changed, attached) →
      ∃ removed detached, attached.tryEdit (.detach group) = .ok (removed, detached) ∧
        (removed = true ∧ trim group ∉ detached.groups ↔ trim group = group) := by
  refine ⟨?added, ?removed, ?attached, ?detached, fun _ _ _ => Role.detach_attached_iff⟩
  case added =>
    intro after ran allowed
    refine ⟨_, listMembers_ok allowed, ?_⟩
    rw [SortedSet.mem_toList_iff, addMember_ok ran, and_iff_left rfl, eq_comm]
  case removed =>
    intro after ran allowed
    refine ⟨_, listMembers_ok allowed, ?_⟩
    rw [SortedSet.mem_toList_iff, removeMember_ok ran, and_iff_left rfl, not_and_or, not_not, or_comm,
      eq_comm]
  case attached =>
    intro id role after ran
    obtain ⟨stored, mem⟩ := attachGroup_ok ran
    exact ⟨stored, fun member within => (mem_rolesOf_of_stored stored).mpr ⟨_, mem, within⟩⟩
  case detached =>
    intro id role after ran
    obtain ⟨stored, gone⟩ := detachGroup_ok ran
    refine ⟨stored, fun member held => ?_⟩
    obtain ⟨other, mem, within⟩ := (mem_rolesOf_of_stored stored).mp held
    refine ⟨other, mem, ?_, within⟩
    rintro rfl
    exact gone mem

open Sample in
theorem group_requests_agree_in_library :
    ∃ after, addMember root "clerks" "ann" library = (.ok (), after) ∧
      ∃ subjects, after.listMembers root "clerks" = .ok subjects ∧ trim "ann" ∈ subjects := by
  let ran := addMember root "clerks" "ann" library
  have done : ran = (.ok (), ran.2) := Prod.ext (by decide +kernel) rfl
  have allowed : ran.2.requireEverywhere root viewRoles = .ok () := by decide +kernel
  have plain : trim "clerks" = "clerks" := by decide +kernel
  obtain ⟨added, _⟩ := group_requests_agree_iff library root root "clerks" "ann"
  obtain ⟨subjects, listed, mem⟩ := added ran.2 done allowed
  exact ⟨ran.2, done, subjects, listed, mem.mpr (.inl plain)⟩

open Sample in
/-- With a blank before the name of a group, the member just added to it is not listed, and a group just
attached to a role by itself stays. -/
theorem spaced_group_unlisted :
    let adding := addMember root " clerks" "ann" library
    let attaching := (Role.bare (Uuid.drawn 1) "clerk").tryEdit (.attach " clerks")
    (adding.1 = .ok () ∧ adding.2.listMembers root " clerks" = .ok []) ∧
      ∃ attached, attaching = .ok (true, attached) ∧
        attached.tryEdit (.detach " clerks") = .ok (false, attached) ∧ "clerks" ∈ attached.groups := by
  refine ⟨⟨by decide +kernel, by decide +kernel⟩, ?_⟩
  refine ⟨(Role.bare (Uuid.drawn 1) "clerk").edit (.attach "clerks"), ?_, ?_, ?_⟩ <;> decide +kernel

end Site

end Entitlement
