import Entitlement.Proofs.Store.Change
import Entitlement.Proofs.Store.Decode
import Mathlib.Data.List.Nodup

/-!
# Roles and members in tables

The roles of a store in memory and the rows of a relational store are the same (`SameRoles`) if each
role has one row and its permissions and groups, as texts, are the rows that refer to it. Members are
compared in the same way (`SameMembers`).
-/

namespace Entitlement

open Text

/-! ### The same roles -/

def Role.row (id : RoleId) (role : Role) : RoleRow := ⟨id, role.label⟩

/-- A role as a store keeps it, with a label that is read back. -/
structure Role.Kept (id : RoleId) (role : Role) : Prop where
  id : role.id = id
  filled : allBlank role.label = false

/-- The text is that of a permission of the role. -/
def Role.Lists (role : Role) (text : String) : Prop := ∃ p ∈ role.permissions, p.toText = text

def Role.IsIn (role : Role) (group : String) : Prop := group ∈ role.groups

/-- The rows of the roles, of their permissions and of their groups are those of what is stored. -/
structure SameRoles (stored : SortedMap RoleId Role) (rows : List RoleRow)
    (permissions : List RolePermissionRow) (groups : List RoleGroupRow) : Prop where
  tabulated : Tabulates Role.row stored rows
  kept : ∀ id role, stored.get? id = some role → role.Kept id
  permissions : Details RolePermissionRow.mk Role.Lists stored permissions
  groups : Details RoleGroupRow.mk Role.IsIn stored groups

namespace SameRoles

variable {stored : SortedMap RoleId Role} {rows : List RoleRow}
  {permissions permissions' : List RolePermissionRow} {groups groups' : List RoleGroupRow}
  {id : RoleId} {role role' : Role}

theorem empty : SameRoles ∅ [] [] [] where
  tabulated := .empty
  kept _ _ found := nomatch found
  permissions := .empty
  groups := .empty

theorem find? (same : SameRoles stored rows permissions groups) (id : RoleId) :
    rows.find? (·.id == id) = (stored.get? id).map (Role.row id) :=
  same.tabulated.find? fun _ _ => beq_iff_eq

theorem any_id (same : SameRoles stored rows permissions groups) (id : RoleId) :
    rows.any (·.id == id) = (stored.get? id).isSome := by
  rw [Bool.eq_iff_iff, same.tabulated.any, Option.isSome_iff_exists]
  constructor
  · rintro ⟨key, role, found, picked⟩
    have here : key = id := beq_iff_eq.mp picked
    exact ⟨role, here ▸ found⟩
  · rintro ⟨role, found⟩
    exact ⟨id, role, found, beq_self_eq_true id⟩

theorem contains_permission (same : SameRoles stored rows permissions groups)
    (found : stored.get? id = some role) (permission : Permission) :
    permissions.contains ⟨id, permission.toText⟩ = role.permissions.contains permission := by
  rw [Bool.eq_iff_iff, List.contains_iff_mem, same.permissions.of_found found, ← SortedSet.mem_iff]
  constructor
  · rintro ⟨p, mem, texts⟩
    exact Permission.toText_injective texts ▸ mem
  · intro mem
    exact ⟨permission, mem, rfl⟩

theorem contains_group (same : SameRoles stored rows permissions groups)
    (found : stored.get? id = some role) (group : String) :
    groups.contains ⟨id, group⟩ = role.groups.contains group := by
  rw [Bool.eq_iff_iff, List.contains_iff_mem, same.groups.of_found found, ← SortedSet.mem_iff]
  exact Iff.rfl

theorem create (same : SameRoles stored rows permissions groups)
    (absent : stored.get? role.id = none) (filled : allBlank role.label = false) :
    SameRoles (stored.insert role.id role) (rows ++ [⟨role.id, role.label⟩])
      (permissions ++ (role.permissions.toList.map Permission.toText).map (⟨role.id, ·⟩))
      (groups ++ role.groups.toList.map (⟨role.id, ·⟩)) where
  tabulated := same.tabulated.insert absent role
  kept := SortedMap.forall_insert ⟨rfl, filled⟩ fun key other found _ => same.kept key other found
  permissions := by
    apply same.permissions.insert
    · intro text
      rw [List.mem_append, or_iff_right (same.permissions.not_mem absent text)]
      simp [Role.Lists, SortedSet.mem_toList_iff]
    · intro key text other
      simp [other.symm]
  groups := by
    apply same.groups.insert
    · intro group
      rw [List.mem_append, or_iff_right (same.groups.not_mem absent group)]
      simp [Role.IsIn, SortedSet.mem_toList_iff]
    · intro key group other
      simp [other.symm]

theorem update (same : SameRoles stored rows permissions groups) (found : stored.get? id = some role)
    (alike : role'.id = role.id ∧ role'.label = role.label)
    (permissions : Details RolePermissionRow.mk Role.Lists (stored.insert id role') permissions')
    (groups : Details RoleGroupRow.mk Role.IsIn (stored.insert id role') groups') :
    SameRoles (stored.insert id role') rows permissions' groups' where
  tabulated := same.tabulated.replace found (by rw [Role.row, Role.row, alike.2])
  kept := by
    have kept := same.kept id role found
    exact SortedMap.forall_insert ⟨alike.1.trans kept.id, alike.2 ▸ kept.filled⟩
      fun key other found' _ => same.kept key other found'
  permissions := permissions
  groups := groups

theorem delete (same : SameRoles stored rows permissions groups) (id : RoleId) :
    SameRoles (stored.erase id) (rows.filter (·.id ≠ id)) (permissions.filter (·.role ≠ id))
      (groups.filter (·.role ≠ id)) where
  tabulated := same.tabulated.erase fun _ _ => decide_eq_true_iff
  kept := SortedMap.forall_erase same.kept
  permissions := same.permissions.erase fun _ _ => decide_eq_true_iff
  groups := same.groups.erase fun _ _ => decide_eq_true_iff

end SameRoles

/-! ### The same members -/

/-- The rows of the members of groups, each there once. -/
structure SameMembers (group : String → SortedSet String) (rows : List MemberRow) : Prop where
  nodup : rows.Nodup
  mem_iff : ∀ name subject, ⟨name, subject⟩ ∈ rows ↔ subject ∈ group name

namespace Memory

variable {m : Memory} {group group' subject subject' : String}

theorem mem_group_addMember :
    subject' ∈ (m.addMember group subject).group group' ↔
      (group' = group ∧ subject' = subject) ∨ subject' ∈ m.group group' := by
  rw [Memory.group, addMember, SortedMap.get?_insert]
  split
  · rename_i here
    rw [Option.getD_some, SortedSet.mem_insert, here, and_iff_right rfl]
  · rename_i other
    rw [or_iff_right fun here => other here.1]
    exact Iff.rfl

theorem mem_group_removeMember :
    subject' ∈ (m.removeMember group subject).group group' ↔
      subject' ∈ m.group group' ∧ ¬ (group' = group ∧ subject' = subject) := by
  have left : subject' ∈ ((m.group group).erase subject) ↔
      subject' ∈ m.group group ∧ subject' ≠ subject := by
    rw [SortedSet.mem_erase, and_comm]
  have found : (m.removeMember group subject).members.get? group' =
      if group' = group then
        if ((m.group group).erase subject).isEmpty then none
        else some ((m.group group).erase subject)
      else m.members.get? group' := by
    unfold removeMember
    dsimp only
    split
    · rw [SortedMap.get?_erase]
    · rw [SortedMap.get?_insert]
  rw [Memory.group, found]
  split
  · rename_i here
    rw [here, and_iff_right rfl, ← ne_eq, ← left]
    split
    · rename_i empty
      exact iff_of_false (SortedSet.not_mem_empty _) (SortedSet.isEmpty_iff.mp empty _)
    · exact Iff.rfl
  · rename_i other
    rw [and_iff_left fun here => other here.1]
    exact Iff.rfl

end Memory

namespace SameMembers

variable {m : Memory} {rows : List MemberRow} {name : String}

theorem empty : SameMembers (∅ : Memory).group [] where
  nodup := .nil
  mem_iff _ _ := iff_of_false List.not_mem_nil (SortedSet.not_mem_empty _)

theorem contains (same : SameMembers m.group rows) (name subject : String) :
    rows.contains ⟨name, subject⟩ = (m.group name).contains subject := by
  rw [Bool.eq_iff_iff, List.contains_iff_mem, same.mem_iff, SortedSet.mem_iff]

theorem add (same : SameMembers m.group rows) (name subject : String) :
    SameMembers (m.addMember name subject).group
      (if rows.contains ⟨name, subject⟩ then rows else rows ++ [⟨name, subject⟩]) where
  nodup := by
    split
    · exact same.nodup
    · rename_i absent
      rw [List.contains_iff_mem] at absent
      have more : (⟨name, subject⟩ :: rows).Nodup := List.nodup_cons.mpr ⟨absent, same.nodup⟩
      exact (List.perm_append_singleton _ _).nodup_iff.mpr more
  mem_iff name' subject' := by
    rw [Memory.mem_group_addMember, ← same.mem_iff]
    split
    · rename_i present
      refine (or_iff_right_of_imp ?_).symm
      rintro ⟨rfl, rfl⟩
      exact List.contains_iff_mem.mp present
    · rw [List.mem_append, List.mem_singleton, MemberRow.mk.injEq, or_comm]

theorem remove (same : SameMembers m.group rows) (name subject : String) :
    SameMembers (m.removeMember name subject).group (rows.filter (· ≠ ⟨name, subject⟩)) where
  nodup := same.nodup.filter _
  mem_iff name' subject' := by
    rw [Memory.mem_group_removeMember, List.mem_filter, decide_eq_true_iff, same.mem_iff, ne_eq,
      MemberRow.mk.injEq]

theorem list_perm (same : SameMembers m.group rows) (name : String) :
    ((rows.filter (·.group == name)).map (·.subject)).Perm (m.group name).toList := by
  have nodup : ((rows.filter (·.group == name)).map (·.subject)).Nodup := by
    refine (same.nodup.filter _).map_on fun row mem row' mem' subjects => ?_
    have here := beq_iff_eq.mp (List.mem_filter.mp mem).2
    have here' := beq_iff_eq.mp (List.mem_filter.mp mem').2
    obtain ⟨_, _⟩ := row
    exact MemberRow.mk.injEq .. ▸ ⟨here.trans here'.symm, subjects⟩
  refine (List.perm_ext_iff_of_nodup nodup (SortedSet.nodup_toList _)).mpr fun subject => ?_
  rw [SortedSet.mem_toList_iff, ← same.mem_iff]
  exact mem_map_filter MemberRow.mk (fun _ => rfl) (fun _ _ => ⟨rfl, rfl⟩)

end SameMembers

end Entitlement
