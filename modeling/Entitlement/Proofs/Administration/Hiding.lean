import Entitlement.Proofs.Access.Agreement
import Entitlement.Proofs.Administration.Authority
import Entitlement.Proofs.Store.Tables

/-!
# What is told of a role that may not be seen

A user who may not see a role gets a report of the kind that there is for a missing one, but with another
text: the reports are alike only where the role is missing (`Site.viewRole_alike_iff`).
-/

namespace Entitlement

namespace Site

variable {site : Site Memory} {actor : User} {id : RoleId}

/-- The site whose store differs by not having the role. -/
def without (site : Site Memory) (id : RoleId) : Site Memory :=
  { site with store := { site.store with roles := site.store.roles.erase id } }

/-- A role, or the report of why there is none to be had. -/
def roleReport (site : Site Memory) (actor : User) (id : RoleId) : Except Report Role :=
  (site.viewRole actor id).mapError Failure.report

theorem roleReport_of_missing (missing : site.store.roles.get? id = none) :
    site.roleReport actor id = .error (.notFound ("role '" ++ id.toText ++ "' was not found")) := by
  have looked : Store.findRole site.store id = .ok none := congrArg Except.ok missing
  unfold roleReport viewRole role
  rw [looked]
  rfl

theorem roleReport_of_without : (site.without id).roleReport actor id =
    .error (.notFound ("role '" ++ id.toText ++ "' was not found")) :=
  roleReport_of_missing (SortedMap.get?_erase_self site.store.roles id)

theorem roleReport_of_denied (known : site.registry.isRegistered roleModel = true)
    (grounded : site.relations.Grounded site.registry)
    (denied : ¬ site.HoldsOn actor viewRoles (roleObject id)) {role : Role}
    (stored : site.store.roles.get? id = some role) :
    site.roleReport actor id =
      .error (.notFound ("object '" ++ (roleObject id).toText ++ "' was not found")) := by
  have registered : ∀ object ∈ [roleObject id], site.registry.isRegistered object.model = true :=
    List.forall_mem_singleton.mpr known
  obtain ⟨grants, read, _⟩ := site.store.contents.site_grantedObjects actor viewRoles
  have ran := restrict_eq_filter site.store.contents grounded read (fun object => object) _ registered
  have found : site.role id = .ok role := role_ok_iff.mpr stored
  rcases restrict_singleton ran with none | kept
  · rw [none] at ran
    have refused : site.require viewRoles (roleObject id) actor .hidden =
        .error (.objectHidden (roleObject id)) := by
      unfold require check
      change (Except.map _ (site.restrict viewRoles (fun object => object) _ actor) >>= _) = _
      rw [ran]
      rfl
    unfold roleReport viewRole
    rw [found]
    simp only [bind, Except.bind, refused]
    rfl
  · rw [kept] at ran
    exact absurd (.inr ran) denied

/-- The two texts differ in their first letter. -/
theorem hidden_ne_missing (id : RoleId) :
    "object '" ++ (roleObject id).toText ++ "' was not found" ≠
      "role '" ++ id.toText ++ "' was not found" := by
  intro same
  have letters := congrArg (fun text => text.toList.head?) same
  simp at letters

/-- Of a role that a user may not see, the user gets a report of the kind "not found" whether or not the
role is stored, but the text tells which: a stored one is called an object, a missing one a role. -/
theorem viewRole_alike_iff (known : site.registry.isRegistered roleModel = true)
    (grounded : site.relations.Grounded site.registry)
    (denied : ¬ site.HoldsOn actor viewRoles (roleObject id)) :
    (site.roleReport actor id = (site.without id).roleReport actor id ↔ site.store.roles.get? id = none) ∧
      (site.without id).roleReport actor id =
        .error (.notFound ("role '" ++ id.toText ++ "' was not found")) ∧
      (site.store.roles.get? id ≠ none → site.roleReport actor id =
        .error (.notFound ("object '" ++ (roleObject id).toText ++ "' was not found"))) := by
  have hidden : site.store.roles.get? id ≠ none → site.roleReport actor id =
      .error (.notFound ("object '" ++ (roleObject id).toText ++ "' was not found")) := by
    intro present
    obtain ⟨role, stored⟩ := Option.ne_none_iff_exists'.mp present
    exact roleReport_of_denied known grounded denied stored
  refine ⟨⟨fun same => ?_, fun missing => ?_⟩, roleReport_of_without, hidden⟩
  · refine Classical.byContradiction fun present => ?_
    rw [hidden present, roleReport_of_without] at same
    exact hidden_ne_missing id (Report.notFound.inj (Except.error.inj same))
  · rw [roleReport_of_missing missing, roleReport_of_without]

end Site

namespace Sample

/-- The role of the heads of the office. -/
def head : RoleId := Uuid.drawn 1

theorem office_grounded : office.relations.Grounded office.registry :=
  Memory.grounded (by decide +kernel) (by intro pin mem; cases mem)

theorem bob_may_not_view : ¬ office.HoldsOn bob viewRoles (roleObject head) :=
  Site.not_holdsOn_of_no_roles (by decide) (by decide +kernel)

end Sample

open Sample in
theorem Site.viewRole_alike_in_office :
    ¬ office.HoldsOn bob viewRoles (roleObject head) ∧
      office.roleReport bob head =
        .error (.notFound ("object '" ++ (roleObject head).toText ++ "' was not found")) := by
  have known : office.registry.isRegistered roleModel = true := by decide +kernel
  have stored : office.store.roles.get? head ≠ none := by decide +kernel
  exact ⟨bob_may_not_view, (viewRole_alike_iff known office_grounded bob_may_not_view).2.2 stored⟩

open Sample in
/-- The head's role is stored, bob may not see it, and is told so by the text. -/
theorem Site.hidden_role_told :
    office.registry.isRegistered roleModel = true ∧
      office.relations.Grounded office.registry ∧
      (office.store.roles.get? head).isSome = true ∧
      ¬ office.HoldsOn bob viewRoles (roleObject head) ∧
      office.roleReport bob head ≠ (office.without head).roleReport bob head :=
  ⟨by decide +kernel, office_grounded, by decide +kernel, bob_may_not_view, by decide +kernel⟩

end Entitlement
