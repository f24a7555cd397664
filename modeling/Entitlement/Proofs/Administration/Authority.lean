import Entitlement.Proofs.Access.Restriction
import Entitlement.Proofs.Administration.Effects

/-!
# Who may change what

An operation changes nothing unless its user holds the permission that guards it, and users who hold
none of the guarding permissions on any object change nothing in any number of operations
(`Site.changes_only_if_allowed`).
-/

namespace Entitlement

namespace Site

/-- The user passes every check, or some role of one of the user's groups has the permission on every
object. -/
def HoldsEverywhere (site : Site Memory) (user : User) (permission : Permission) : Prop :=
  (user.isSuperuser = true ∨ user.isStaff = true) ∨ ∃ role ∈ site.store.roles.values,
    (∃ group ∈ role.groups, user.subject ∈ site.store.group group) ∧ permission ∈ role.permissions

/-- The user holds the permission everywhere, or a restriction to the object keeps it. -/
def HoldsOn (site : Site Memory) (user : User) (permission : Permission) (object : Object) : Prop :=
  site.HoldsEverywhere user permission ∨ site.restrict permission id [object] user = .ok [object]

end Site

/-- What the user has to hold for an operation that changes something. -/
def Operation.Allowed (site : Site Memory) (actor : User) : Operation → Prop
  | .createRole _ _ => site.HoldsEverywhere actor createRoles
  | .deleteRole id => site.HoldsOn actor deleteRoles (roleObject id)
  | .grantToRole id _ | .revokeFromRole id _ | .attachGroup id _ | .detachGroup id _ =>
    site.HoldsOn actor editRoles (roleObject id)
  | .addMember _ _ | .removeMember _ _ => site.HoldsEverywhere actor editRoles
  | .grant target _ _ | .revoke target _ _ => site.HoldsOn actor editEntries target
  | .setRelation _ _ _ | .clearRelation _ _ => site.HoldsEverywhere actor editEntries
  -- The others only read, so nothing would allow a change by them.
  | _ => False

namespace Site

variable {site : Site Memory} {user actor : User} {permission : Permission} {target : Object}

/-! ### What checks make sure of -/

theorem override?_eq_none_iff :
    user.override? = none ↔ ¬ (user.isSuperuser = true ∨ user.isStaff = true) := by
  unfold User.override?
  cases user.isSuperuser <;> cases user.isStaff <;> simp

theorem override?_eq_some {access : GlobalAccess} (passes : user.override? = some access) :
    user.isSuperuser = true ∨ user.isStaff = true := by
  refine Classical.byContradiction fun ordinary => ?_
  rw [override?_eq_none_iff.mpr ordinary] at passes
  cases passes

theorem globalAccess?_holdsEverywhere {access : GlobalAccess}
    (found : user.globalAccess? (site.store.rolesOf user.subject) permission = some access) :
    site.HoldsEverywhere user permission := by
  unfold User.globalAccess? at found
  split at found
  · rename_i passes
    exact .inl (override?_eq_some passes)
  · split at found
    · rename_i held
      obtain ⟨role, mem, holds⟩ := List.any_eq_true.mp held
      obtain ⟨stored, joined⟩ := Memory.mem_rolesOf.mp mem
      exact .inr ⟨role, stored, joined, holds⟩
    · cases found

theorem globalAccess?_eq_none_iff :
    user.globalAccess? (site.store.rolesOf user.subject) permission = none ↔
      ¬ site.HoldsEverywhere user permission := by
  cases found : user.globalAccess? (site.store.rolesOf user.subject) permission with
  | some access => exact iff_of_false (by simp) (not_not.mpr (globalAccess?_holdsEverywhere found))
  | none =>
    refine iff_of_true rfl ?_
    unfold User.globalAccess? at found
    split at found
    · cases found
    · rename_i ordinary
      split at found
      · cases found
      · rename_i unheld
        rintro (passes | ⟨role, stored, joined, mem⟩)
        · exact override?_eq_none_iff.mp ordinary passes
        · exact unheld (List.any_eq_true.mpr ⟨role, Memory.mem_rolesOf.mpr ⟨stored, joined⟩, mem⟩)

theorem requireEverywhere_ok (allowed : site.requireEverywhere user permission = .ok ()) :
    site.HoldsEverywhere user permission := by
  obtain ⟨access, granted, _⟩ := map_ok allowed
  unfold requireAny at granted
  split at granted
  · rename_i passes
    exact .inl (override?_eq_some passes)
  · obtain ⟨roles, read, granted⟩ := bind_ok granted
    cases read
    split at granted
    · rename_i found
      rw [List.findSome?_singleton] at found
      exact globalAccess?_holdsEverywhere found
    · cases granted

/-- One candidate is kept or not. -/
theorem restrict_singleton {kept : List Object}
    (ran : site.restrict permission id [target] user = .ok kept) : kept = [] ∨ kept = [target] := by
  obtain ⟨roles, _, ran⟩ := bind_ok ran
  split at ran
  · cases ran
    exact .inr rfl
  · obtain ⟨grants, _, ran⟩ := bind_ok ran
    obtain ⟨passes, _, ran⟩ := bind_ok ran
    obtain ⟨rest, none, ran⟩ := bind_ok ran
    cases none
    cases passes with
    | false =>
      cases ran
      exact .inl rfl
    | true =>
      cases ran
      exact .inr rfl

theorem require_ok {denial : Denial} (allowed : site.require permission target user denial = .ok ()) :
    site.HoldsOn user permission target := by
  obtain ⟨granted, checked, allowed⟩ := bind_ok allowed
  obtain ⟨kept, ran, same⟩ := map_ok checked
  rcases restrict_singleton ran with rfl | rfl
  · rw [← same] at allowed
    cases allowed
  · exact .inr ran

theorem requireRelationEdit_ok {objects : List Object} {relation : String}
    (allowed : site.requireRelationEdit actor objects relation = .ok ()) :
    (∀ object ∈ objects, site.registry.isRegistered object.model = true) ∧
      site.HoldsEverywhere actor editEntries := by
  obtain ⟨_, _, allowed⟩ := bind_ok allowed
  obtain ⟨_, known, allowed⟩ := bind_ok allowed
  exact ⟨fun object mem => isRegistered_of_required (forM_ok known object mem),
    requireEverywhere_ok allowed⟩

/-- Who passes no check as such and has no role holds nothing, whatever the relations lead to. -/
theorem not_holdsOn_of_no_roles (ordinary : user.override? = none)
    (roleless : site.store.rolesOf user.subject = []) : ¬ site.HoldsOn user permission target := by
  rintro (everywhere | kept)
  · rcases everywhere with passes | ⟨role, stored, joined, _⟩
    · exact override?_eq_none_iff.mp ordinary passes
    · have held := Memory.mem_rolesOf.mpr ⟨stored, joined⟩
      rw [roleless] at held
      cases held
  · obtain ⟨roles, read, ran⟩ := bind_ok kept
    cases (Except.ok.inj read).symm.trans roleless
    split at ran
    · rename_i found
      simp [User.globalAccess?, ordinary] at found
    · obtain ⟨grants, granted, ran⟩ := bind_ok ran
      cases granted
      obtain ⟨passes, tested, ran⟩ := bind_ok ran
      obtain ⟨_, _, tested⟩ := bind_ok tested
      cases tested
      cases ran

/-! ### Operations -/

theorem Effects.allowed {operation : Operation} {changes : List Change}
    (effects : site.Effects actor operation changes) : operation.Allowed site actor := by
  cases effects with
  | createRole allowed | addMember allowed | removeMember allowed => exact requireEverywhere_ok allowed
  | deleteRole _ allowed | grant allowed | revoke allowed => exact require_ok allowed
  | editRole edits _ allowed => cases edits <;> exact require_ok allowed
  | setRelation allowed | clearRelation allowed => exact (requireRelationEdit_ok allowed).2

theorem perform_idle_or_allowed (actor : User) (operation : Operation) :
    site.Idle (perform actor operation site).2 ∨ operation.Allowed site actor := by
  rcases perform_did site actor operation with idle | ⟨_, _, _, effects, _⟩
  · exact .inl idle
  · exact .inr effects.allowed

/-- The permissions that guard the administration. -/
def guards : List Permission := [createRoles, deleteRoles, editRoles, editEntries]

theorem holds_of_allowed {operation : Operation} (allowed : operation.Allowed site actor) :
    ∃ permission ∈ guards, ∃ object, site.HoldsOn actor permission object := by
  cases operation with
  | createRole label given => exact ⟨createRoles, by simp [guards], roleObject default, .inl allowed⟩
  | deleteRole id => exact ⟨deleteRoles, by simp [guards], _, allowed⟩
  | grantToRole id p | revokeFromRole id p | attachGroup id group | detachGroup id group =>
    exact ⟨editRoles, by simp [guards], _, allowed⟩
  | addMember group subject | removeMember group subject =>
    exact ⟨editRoles, by simp [guards], roleObject default, .inl allowed⟩
  | grant target p id | revoke target p id => exact ⟨editEntries, by simp [guards], _, allowed⟩
  | setRelation child relation parent | clearRelation child relation =>
    exact ⟨editEntries, by simp [guards], roleObject default, .inl allowed⟩
  | _ => exact allowed.elim

/-- Identifiers drawn do not count for what a user holds, so users without power stay without. -/
theorem after_idle (powerless : ∀ permission ∈ guards, ∀ object, ¬ site.HoldsOn actor permission object)
    (operations : List Operation) : site.Idle (site.after (operations.map (actor, ·))) := by
  induction operations generalizing site with
  | nil => exact idle_self site
  | cons operation rest ih =>
    have first : site.Idle (perform actor operation site).2 := by
      refine (perform_idle_or_allowed actor operation).resolve_right fun allowed => ?_
      obtain ⟨permission, guarding, object, holds⟩ := holds_of_allowed allowed
      exact powerless permission guarding object holds
    obtain ⟨drawn, first⟩ := first
    have others := @ih { site with rolesDrawn := drawn } powerless
    rw [← first] at others
    obtain ⟨drawn', others⟩ := others
    refine ⟨drawn', others.trans ?_⟩
    rw [first]

/-- Whatever an operation changes, its user held the permission that guards it before. A user who holds
none of the guarding permissions on any object changes nothing, however many operations there are. -/
theorem changes_only_if_allowed (site : Site Memory) (actor : User) :
    (∀ operation : Operation, (perform actor operation site).2.store ≠ site.store →
      operation.Allowed site actor) ∧
    ((∀ permission ∈ guards, ∀ object, ¬ site.HoldsOn actor permission object) →
      ∀ operations : List Operation,
        (site.after (operations.map (actor, ·))).store = site.store) := by
  constructor
  · intro operation differs
    exact (perform_idle_or_allowed actor operation).resolve_left fun idle => differs idle.store
  · intro powerless operations
    exact (after_idle powerless operations).store

end Site

namespace Sample

/-- An office whose heads may create roles. -/
def office : Site Memory where
  registry := {
    labels := .ofList [(createRoles, "Create roles"), (editRoles, "Edit roles")]
    applicable := .ofList [(roleModel, .ofList [editRoles])] }
  store := Change.run ∅ [
    .createRole ⟨Uuid.drawn 1, "head", .ofList [createRoles], .ofList ["heads"]⟩,
    .addMember "heads" "eve"]

def eve : User := ({} : Overrides).user "eve"

def bob : User := ({} : Overrides).user "bob"

/-- Hires a clerk and makes him a head. -/
def promotion : List Operation := [.createRole "clerk" none, .addMember "heads" "bob"]

end Sample

open Sample in
theorem Site.changes_only_if_allowed_in_office :
    ((perform eve (.createRole "clerk" none) office).2.store ≠ office.store ∧
      (.createRole "clerk" none : Operation).Allowed office eve) ∧
    (∀ permission ∈ guards, ∀ object, ¬ office.HoldsOn bob permission object) ∧
      (office.after (promotion.map (bob, ·))).store = office.store := by
  have differs : (perform eve (.createRole "clerk" none) office).2.store ≠ office.store := by
    decide +kernel
  have powerless : ∀ permission ∈ guards, ∀ object, ¬ office.HoldsOn bob permission object :=
    fun _ _ _ => not_holdsOn_of_no_roles (by decide) (by decide +kernel)
  exact ⟨⟨differs, (changes_only_if_allowed office eve).1 _ differs⟩, powerless,
    (changes_only_if_allowed office bob).2 powerless promotion⟩

end Entitlement
