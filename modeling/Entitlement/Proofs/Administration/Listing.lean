import Entitlement.Proofs.Administration.Hiding
import Entitlement.Proofs.Store.Labels

/-!
# Listing roles and viewing one

The roles that are listed for a user are those that the user may view one by one, as they are viewed, in
strict order of their labels (`Site.listRoles_agrees`).
-/

namespace Entitlement

namespace Site

variable {site : Site Memory} {permission : Permission} {user actor : User} {target : Object}

theorem require_ok_iff (denial : Denial) :
    site.require permission target user denial = .ok () ↔ site.check permission target user = .ok true := by
  unfold require
  cases site.check permission target user with
  | error failure => exact iff_of_false (fun ran => by cases ran) (fun ran => by cases ran)
  | ok passes =>
    cases passes with
    | true => exact iff_of_true rfl rfl
    | false => exact iff_of_false (fun ran => by cases ran) (fun ran => by cases ran)

theorem viewRole_ok_iff {id : RoleId} {role : Role} :
    site.viewRole actor id = .ok role ↔
      site.store.roles.get? id = some role ∧
        site.check viewRoles (roleObject id) actor = .ok true := by
  unfold viewRole
  rw [← role_ok_iff, ← require_ok_iff .hidden]
  constructor
  · intro viewed
    obtain ⟨_, read, viewed⟩ := bind_ok viewed
    obtain ⟨_, allowed, viewed⟩ := bind_ok viewed
    cases viewed
    exact ⟨read, allowed⟩
  · rintro ⟨read, allowed⟩
    rw [read]
    simp only [bind, Except.bind, allowed]
    rfl

/-- Listing roles and checking one see the same of a role. -/
theorem listRoles_ok (known : site.registry.isRegistered roleModel = true)
    (grounded : site.relations.Grounded site.registry) (actor : User) :
    ∃ sees : RoleId → Bool,
      site.listRoles actor =
        .ok ((sortOn (·.label) site.store.roles.values).filter fun role => sees role.id) ∧
      ∀ own, site.check viewRoles (roleObject own) actor = .ok (sees own) := by
  obtain ⟨grants, read, _⟩ := site.store.contents.site_grantedObjects actor viewRoles
  let sees (own : RoleId) : Bool :=
    (site.explanationOf viewRoles actor (site.store.rolesOf actor.subject) grants (roleObject own)).granted
  refine ⟨sees, ?_, fun own => ?_⟩
  · exact restrict_eq_filter site.store.contents grounded read (fun role : Role => roleObject role.id) _
      fun _ _ => known
  · exact check_of_restrict (restrict_eq_filter site.store.contents grounded read id [roleObject own]
      (List.forall_mem_singleton.mpr known))

/-- The roles that are listed for a user are the stored ones that the user may view, as they are viewed,
each once, and in strict order of their labels. -/
theorem listRoles_agrees (changes : List Change) (site : Site Memory)
    (reached : site.store = Change.run ∅ changes)
    (known : site.registry.isRegistered roleModel = true)
    (grounded : site.relations.Grounded site.registry) (actor : User) :
    ∃ roles, site.listRoles actor = .ok roles ∧
      (∀ id role, site.viewRole actor id = .ok role ↔ role ∈ roles ∧ role.id = id) ∧
      (∀ role ∈ roles, site.store.roles.get? role.id = some role) ∧ (roles.map (·.id)).Nodup ∧
      roles.Pairwise fun role other => compare role.label other.label = .lt := by
  have keyed : site.store.Keyed := reached ▸ Memory.run_keyed Memory.empty_keyed changes
  have labelled : site.store.Labelled := reached ▸ Memory.run_labelled Memory.empty_labelled changes
  obtain ⟨sees, listed, checked⟩ := listRoles_ok known grounded actor
  have mem_iff : ∀ role, role ∈ (sortOn (·.label) site.store.roles.values).filter (fun role => sees role.id) ↔
      site.store.roles.get? role.id = some role ∧ sees role.id = true := by
    intro role
    rw [List.mem_filter, mem_sortOn, keyed.mem_roles_iff]
  refine ⟨_, listed, fun id role => ?_, fun role mem => ((mem_iff role).mp mem).1, ?_, ?_⟩
  · rw [viewRole_ok_iff, checked, Except.ok.injEq, mem_iff]
    constructor
    · rintro ⟨found, seen⟩
      obtain rfl := keyed.roles id role found
      exact ⟨⟨found, seen⟩, rfl⟩
    · rintro ⟨viewed, rfl⟩
      exact viewed
  · refine (List.filter_sublist.map _).nodup ?_
    exact ((sortOn_perm _ _).map _).nodup_iff.mpr keyed.ids_nodup
  · exact labelled.listed.filter _

end Site

namespace Sample

/-- The role of the clerks of the office. -/
def junior : Role := ⟨Uuid.drawn 2, "clerk", ∅, .ofList ["clerks"]⟩

/-- Lets the clerks view their own role, and not that of the heads. -/
def signing : List Change := [
  .createRole ⟨head, "head", ∅, .ofList ["heads"]⟩,
  .createRole junior,
  .addMember "clerks" "bob",
  .addPermission (roleObject junior.id) junior.id viewRoles]

def bureau : Site Memory where
  registry := { applicable := .ofList [(roleModel, .ofList [viewRoles])] }
  store := Change.run ∅ signing

theorem bureau_grounded : bureau.relations.Grounded bureau.registry :=
  Memory.grounded (by decide +kernel) (by intro pin mem; cases mem)

end Sample

open Sample in
theorem Site.listRoles_agrees_in_bureau :
    bureau.listRoles bob = .ok [junior] ∧
      ∀ id role, bureau.viewRole bob id = .ok role ↔ role ∈ [junior] ∧ role.id = id := by
  have known : bureau.registry.isRegistered roleModel = true := by decide +kernel
  have shown : bureau.listRoles bob = .ok [junior] := by decide +kernel
  obtain ⟨roles, listed, agree, _⟩ := listRoles_agrees signing bureau rfl known bureau_grounded bob
  cases listed.symm.trans shown
  exact ⟨shown, agree⟩

end Entitlement
