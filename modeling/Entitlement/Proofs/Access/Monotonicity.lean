import Entitlement.Proofs.Access.Restriction
import Entitlement.Proofs.Administration.Calls
import Entitlement.Proofs.Store.RoleTables

/-!
# More rights, more to see

`Memory.Within` compares stores by what they give to whom. Calls that give rights lead to a store that
the one before is within, calls that take them to one within the one before; and a restriction keeps no
less in the larger of two such stores (`Site.restrict_monotone`).
-/

namespace Entitlement

/-! ### Stores -/

/-- The same role, with no fewer permissions and groups. -/
structure Role.Within (role role' : Role) : Prop where
  same : role'.id = role.id
  permissions : ∀ permission ∈ role.permissions, permission ∈ role'.permissions
  groups : ∀ group ∈ role.groups, group ∈ role'.groups

/-- An entry of the same role on the same object, with no fewer permissions. -/
structure Entry.Within (entry entry' : Entry) : Prop where
  target : entry'.target = entry.target
  role : entry'.role = entry.role
  permissions : ∀ permission ∈ entry.permissions, permission ∈ entry'.permissions

theorem Role.Within.refl (role : Role) : role.Within role := ⟨rfl, fun _ mem => mem, fun _ mem => mem⟩

theorem Role.Within.trans {role role' role'' : Role} (first : role.Within role')
    (second : role'.Within role'') : role.Within role'' where
  same := second.same.trans first.same
  permissions permission mem := second.permissions permission (first.permissions permission mem)
  groups group mem := second.groups group (first.groups group mem)

theorem Entry.Within.refl (entry : Entry) : entry.Within entry := ⟨rfl, rfl, fun _ mem => mem⟩

theorem Entry.Within.trans {entry entry' entry'' : Entry} (first : entry.Within entry')
    (second : entry'.Within entry'') : entry.Within entry'' where
  target := second.target.trans first.target
  role := second.role.trans first.role
  permissions permission mem := second.permissions permission (first.permissions permission mem)

namespace Memory

/-- Whoever has something by the one store has it by the other, and relations are the same. -/
structure Within (m m' : Memory) : Prop where
  roles : m.roles.Within Role.Within m'.roles
  members : ∀ group subject, subject ∈ m.group group → subject ∈ m'.group group
  entries : m.entries.Within Entry.Within m'.entries
  relations : m'.relations = m.relations

variable {m m' m'' : Memory}

theorem Within.refl (m : Memory) : m.Within m where
  roles := .refl Role.Within.refl m.roles
  members _ _ := id
  entries := .refl Entry.Within.refl m.entries
  relations := rfl

theorem Within.trans (first : m.Within m') (second : m'.Within m'') : m.Within m'' where
  roles := first.roles.trans Role.Within.trans second.roles
  members group subject mem := second.members group subject (first.members group subject mem)
  entries := first.entries.trans Entry.Within.trans second.entries
  relations := second.relations.trans first.relations

end Memory

/-! ### Changes -/

/-- Changes that give rights: permissions to roles, and roles to groups and their members. -/
def Change.Gives : Change → Prop
  | .editRole _ (.grant _) | .editRole _ (.attach _) => True
  | .addMember _ _ | .addPermission _ _ _ | .record _ => True
  | _ => False

def Change.Takes : Change → Prop
  | .editRole _ (.revoke _) | .editRole _ (.detach _) => True
  | .removeMember _ _ | .removePermission _ _ _ | .record _ => True
  | _ => False

namespace Memory

variable {m m' : Memory} {target : Object} {role : RoleId} {permission : Permission}

theorem edit_gives {id : RoleId} {role : Role} {edit normal : RoleEdit}
    (gives : (Change.editRole id edit).Gives) (read : edit.normal = .ok normal) :
    role.Within (role.edit normal) := by
  cases edit with
  | grant permission =>
    cases read
    exact ⟨rfl, fun _ mem => SortedSet.mem_insert.mpr (.inr mem), fun _ mem => mem⟩
  | attach group =>
    obtain ⟨name, _, rfl⟩ := map_ok read
    exact ⟨rfl, fun _ mem => mem, fun _ mem => SortedSet.mem_insert.mpr (.inr mem)⟩
  | revoke | detach => exact gives.elim

theorem edit_takes {id : RoleId} {role : Role} {edit normal : RoleEdit}
    (takes : (Change.editRole id edit).Takes) (read : edit.normal = .ok normal) :
    (role.edit normal).Within role := by
  cases edit with
  | revoke permission =>
    cases read
    exact ⟨rfl, fun _ mem => (SortedSet.mem_erase.mp mem).2, fun _ mem => mem⟩
  | detach group =>
    cases read
    exact ⟨rfl, fun _ mem => mem, fun _ mem => (SortedSet.mem_erase.mp mem).2⟩
  | grant | attach => exact takes.elim

theorem within_addPermission : m.Within (m.addPermission target role permission).2 := by
  have same := Within.refl m
  rcases addPermission_cases m target role permission with
    ⟨_, _, ran⟩ | ⟨entry, found, ran⟩ | ⟨absent, entry, _, ran⟩
  · rw [ran]
    exact same
  · rw [ran]
    refine ⟨same.roles, same.members, SortedMap.within_insert Entry.Within.refl ?_, rfl⟩
    intro other found'
    cases found.symm.trans found'
    exact ⟨rfl, rfl, fun _ mem => SortedSet.mem_insert.mpr (.inr mem)⟩
  · rw [ran]
    refine ⟨same.roles, same.members, SortedMap.within_insert Entry.Within.refl ?_, rfl⟩
    intro other found
    cases absent.symm.trans found

theorem removePermission_within : (m.removePermission target role permission).2.Within m := by
  have same := Within.refl m
  rcases removePermission_cases m target role permission with
    ⟨_, ran⟩ | ⟨entry, found, ran⟩ | ⟨entry, found, ran⟩
  · rw [ran]
    exact same
  · rw [ran]
    have less : (entry.remove permission).Within entry :=
      ⟨rfl, rfl, fun _ mem => (SortedSet.mem_erase.mp mem).2⟩
    exact ⟨same.roles, same.members, SortedMap.insert_within Entry.Within.refl found less, rfl⟩
  · rw [ran]
    exact ⟨same.roles, same.members, SortedMap.erase_within Entry.Within.refl _ _, rfl⟩

theorem serve_gives {change : Change} (gives : change.Gives) (served : change.serve m = .ok m') :
    m.Within m' := by
  have same := Within.refl m
  cases change with
  | editRole id edit =>
    obtain ⟨⟨_, _⟩, edited, rfl⟩ := map_ok served
    obtain ⟨role, normal, found, read, _, rfl⟩ := editRole_ok edited
    refine ⟨?_, same.members, same.entries, rfl⟩
    apply SortedMap.within_insert Role.Within.refl
    intro other found'
    cases found.symm.trans found'
    exact edit_gives gives read
  | addMember group subject =>
    cases served
    exact ⟨same.roles, fun _ _ mem => mem_group_addMember.mpr (.inr mem), same.entries, rfl⟩
  | addPermission target role permission =>
    cases served
    exact within_addPermission
  | record event =>
    cases served
    exact ⟨same.roles, same.members, same.entries, rfl⟩
  | _ => exact gives.elim

theorem serve_takes {change : Change} (takes : change.Takes) (served : change.serve m = .ok m') :
    m'.Within m := by
  have same := Within.refl m
  cases change with
  | editRole id edit =>
    obtain ⟨⟨_, _⟩, edited, rfl⟩ := map_ok served
    obtain ⟨role, normal, found, read, _, rfl⟩ := editRole_ok edited
    exact ⟨SortedMap.insert_within Role.Within.refl found (edit_takes takes read), same.members,
      same.entries, rfl⟩
  | removeMember group subject =>
    cases served
    exact ⟨same.roles, fun _ _ mem => (mem_group_removeMember.mp mem).1, same.entries, rfl⟩
  | removePermission target role permission =>
    cases served
    exact removePermission_within
  | record event =>
    cases served
    exact ⟨same.roles, same.members, same.entries, rfl⟩
  | _ => exact takes.elim

/-! ### Reads -/

variable {user : User}

theorem Within.rolesOf (within : m.Within m') {subject : String} {role : Role}
    (held : role ∈ m.rolesOf subject) : ∃ role' ∈ m'.rolesOf subject, role.Within role' := by
  obtain ⟨stored, group, attached, member⟩ := mem_rolesOf.mp held
  obtain ⟨role', stored', above⟩ := within.roles.values stored
  have member' := within.members group subject member
  exact ⟨role', mem_rolesOf.mpr ⟨stored', group, above.groups group attached, member'⟩, above⟩

theorem Within.granted (within : m.Within m') {object : Object}
    (granted : m.contents.Granted user permission object) :
    m'.contents.Granted user permission object := by
  obtain ⟨role, held, entry, stored, same, on, lists⟩ := granted
  obtain ⟨role', held', above⟩ := within.rolesOf held
  obtain ⟨entry', stored', larger⟩ := within.entries.values stored
  refine ⟨role', held', entry', stored', ?_, larger.target.trans on, larger.permissions _ lists⟩
  rw [larger.role, same, above.same]

theorem Within.ordinary (within : m.Within m')
    (ordinary : user.globalAccess? (m'.rolesOf user.subject) permission = none) :
    user.globalAccess? (m.rolesOf user.subject) permission = none := by
  unfold User.globalAccess? at ordinary ⊢
  split at ordinary
  · cases ordinary
  · split at ordinary
    · cases ordinary
    · rename_i nowhere
      rw [if_neg]
      intro everywhere
      obtain ⟨role, held, holds⟩ := List.any_eq_true.mp everywhere
      obtain ⟨role', held', above⟩ := within.rolesOf held
      exact nowhere (List.any_eq_true.mpr ⟨role', held', above.permissions permission holds⟩)

end Memory

namespace Site

variable {site : Site Memory} {permission : Permission} {user : User}

/-- What a restriction keeps by one store, it keeps by every store that the one is within. -/
theorem restrict_within {m : Memory} (within : site.store.Within m) (drawn : Nat)
    (grounded : site.relations.Grounded site.registry) {α : Type} {object : α → Object}
    {candidates kept : List α} (ran : site.restrict permission object candidates user = .ok kept) :
    ∃ more, Site.restrict { site with store := m, rolesDrawn := drawn } permission object candidates
      user = .ok more ∧ kept.Sublist more := by
  let after : Site Memory := { site with store := m, rolesDrawn := drawn }
  let contents : Contents after.store := m.contents
  have registry : after.registry = site.registry := rfl
  have same : after.relations = site.relations := relations_congr rfl within.relations
  obtain ⟨picked, looked⟩ := restrict_inv site.store.contents ran
  cases access : user.globalAccess? (contents.rolesOf user.subject) permission with
  -- By the larger store the user may hold the permission everywhere, and then nothing is left out.
  | some everywhere => exact ⟨candidates, restrict_of_global contents access object candidates, picked⟩
  | none =>
    have ordinary := within.ordinary access
    have known := looked ordinary
    obtain ⟨grants, read, granted⟩ := site.store.contents.site_grantedObjects user permission
    obtain ⟨grants', read', granted'⟩ := contents.site_grantedObjects user permission
    rw [restrict_ok site.store.contents grounded ordinary read object candidates known] at ran
    cases ran
    refine ⟨_, restrict_ok contents (same ▸ grounded) access read' object candidates known, ?_⟩
    have more : ∀ object, object ∈ grants → object ∈ grants' := fun object mem =>
      (granted' object).mpr (within.granted ((granted object).mp mem))
    refine List.monotone_filter_right candidates fun c held => ?_
    rw [keeps, Bool.and_eq_true] at held ⊢
    rw [conditionOf_congr registry same]
    exact held.imp_right (Condition.holds_mono more _)

end Site

/-! ### Calls -/

def Operation.Gives : Operation → Prop
  | .grantToRole _ _ | .attachGroup _ _ | .addMember _ _ | .grant _ _ _ => True
  | _ => False

def Operation.Takes : Operation → Prop
  | .revokeFromRole _ _ | .detachGroup _ _ | .removeMember _ _ | .revoke _ _ _ => True
  | _ => False

namespace Site

/-- Granting, attaching a group to a role, or adding a member, by whichever service. -/
def Call.Gives : Call → Prop
  | .perform _ operation => operation.Gives
  | .grant _ _ _ => True
  | .revoke _ _ _ => False

def Call.Takes : Call → Prop
  | .perform _ operation => operation.Takes
  | .grant _ _ _ => False
  | .revoke _ _ _ => True

variable {site : Site Memory} {call : Call}

theorem Asks.gives {changes : List Change} (asks : site.Asks call changes) (gives : call.Gives) :
    ∀ change ∈ changes, change.Gives := by
  cases asks with
  | perform effects =>
    cases effects with
    | editRole edits =>
      cases edits with
      | grant | attach => simp [Change.Gives]
      | revoke | detach => exact gives.elim
    | addMember | grant => simp [Change.Gives]
    | _ => exact gives.elim
  | grant => simp [Change.Gives]
  | revoke => exact gives.elim

theorem Asks.takes {changes : List Change} (asks : site.Asks call changes) (takes : call.Takes) :
    ∀ change ∈ changes, change.Takes := by
  cases asks with
  | perform effects =>
    cases effects with
    | editRole edits =>
      cases edits with
      | revoke | detach => simp [Change.Takes]
      | grant | attach => exact takes.elim
    | removeMember | revoke => simp [Change.Takes]
    | _ => exact takes.elim
  | revoke => simp [Change.Takes]
  | grant => exact takes.elim

theorem afterCall_gives (site : Site Memory) (gives : call.Gives) : ∃ m drawn,
    site.store.Within m ∧ site.afterCall call = { site with store := m, rolesDrawn := drawn } := by
  rcases afterCall_did site call with ⟨drawn, idle⟩ | ⟨changes, m, drawn, asks, served, same⟩
  · exact ⟨site.store, drawn, .refl _, idle⟩
  · refine ⟨m, drawn, ?_, same⟩
    refine Change.serveAll_rel Memory.Within Memory.Within.refl Memory.Within.trans ?_ served
    exact fun change mem _ _ => Memory.serve_gives (asks.gives gives change mem)

theorem afterCall_takes (site : Site Memory) (takes : call.Takes) : ∃ m drawn,
    m.Within site.store ∧ site.afterCall call = { site with store := m, rolesDrawn := drawn } := by
  rcases afterCall_did site call with ⟨drawn, idle⟩ | ⟨changes, m, drawn, asks, served, same⟩
  · exact ⟨site.store, drawn, .refl _, idle⟩
  · refine ⟨m, drawn, ?_, same⟩
    refine Change.serveAll_rel (fun m m' => m'.Within m) Memory.Within.refl
      (fun first second => second.trans first) ?_ served
    exact fun change mem _ _ => Memory.serve_takes (asks.takes takes change mem)

/-- Where a restriction succeeds, it succeeds after a call that gives rights and keeps no less; and after
a call that takes rights it keeps no more, if it succeeds. -/
theorem restrict_monotone (grounded : site.relations.Grounded site.registry) {α : Type}
    {permission : Permission} {object : α → Object} {candidates kept : List α} {user : User}
    (ran : site.restrict permission object candidates user = .ok kept) (call : Call) :
    (call.Gives → ∃ more,
      (site.afterCall call).restrict permission object candidates user = .ok more ∧
        kept.Sublist more) ∧
    (call.Takes → ∀ fewer,
      (site.afterCall call).restrict permission object candidates user = .ok fewer →
        fewer.Sublist kept) := by
  constructor
  · intro gives
    obtain ⟨m, drawn, within, same⟩ := afterCall_gives site gives
    rw [same]
    exact restrict_within within drawn grounded ran
  · intro takes fewer ran'
    obtain ⟨m, drawn, within, same⟩ := afterCall_takes site takes
    rw [same] at ran'
    -- The site before is the one after with a store that the present one is within.
    let after : Site Memory := { site with store := m, rolesDrawn := drawn }
    have relations : after.relations = site.relations := relations_congr rfl within.relations.symm
    have grounded' : after.relations.Grounded after.registry := relations ▸ grounded
    obtain ⟨more, again, sub⟩ := restrict_within within site.rolesDrawn grounded' ran'
    cases again.symm.trans ran
    exact sub

open Sample in
theorem restrict_monotone_in_library :
    library.restrict view id [⟨document, "d"⟩, ⟨document, "e"⟩] ann = .ok [⟨document, "d"⟩] ∧
      (∃ more, (library.afterCall (.grant ⟨document, "e"⟩ view reader)).restrict view id
        [⟨document, "d"⟩, ⟨document, "e"⟩] ann = .ok more ∧ [⟨document, "d"⟩].Sublist more) ∧
      ∀ fewer, (library.afterCall (.revoke ⟨folder, "f"⟩ view reader)).restrict view id
        [⟨document, "d"⟩, ⟨document, "e"⟩] ann = .ok fewer → fewer.Sublist [⟨document, "d"⟩] := by
  have ran : library.restrict view id [⟨document, "d"⟩, ⟨document, "e"⟩] ann =
      .ok [⟨document, "d"⟩] := by decide +kernel
  exact ⟨ran, (restrict_monotone library_grounded ran _).1 trivial,
    (restrict_monotone library_grounded ran _).2 trivial⟩

end Site

end Entitlement
