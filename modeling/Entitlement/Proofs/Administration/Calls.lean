import Entitlement.Proofs.Administration.Effects

/-!
# What calls do

A site can be asked for operations, and for grants on behalf of nobody. `Asks` lists, for every such call
that has an effect, what it finds and which changes it asks the store for; a call does nothing else to a
site (`afterCall_did`).
-/

namespace Entitlement

/-- What relates a store to the one after each change relates it to the one after all of them. -/
theorem Change.serveAll_rel (related : Memory → Memory → Prop) (refl : ∀ m, related m m)
    (trans : ∀ {m m' m''}, related m m' → related m' m'' → related m m'') {changes : List Change}
    (each : ∀ change ∈ changes, ∀ m m', change.serve m = .ok m' → related m m') {m m' : Memory}
    (served : Change.serveAll m changes = .ok m') : related m m' := by
  induction changes generalizing m with
  | nil =>
    cases served
    exact refl _
  | cons change rest ih =>
    obtain ⟨first, others⟩ := List.forall_mem_cons.mp each
    obtain ⟨next, served, after⟩ := Change.serveAll_cons_ok.mp served
    exact trans (first m next served) (ih others after)

namespace Site

/-- What a site can be asked for: an operation on behalf of a user, or a grant or its revocation on
behalf of nobody. -/
inductive Call where
  | perform (actor : User) (operation : Operation)
  | grant (target : Object) (permission : Permission) (role : RoleId)
  | revoke (target : Object) (permission : Permission) (role : RoleId)

/-- The site after a call, whether or not it succeeded. -/
def afterCall (site : Site Memory) : Call → Site Memory
  | .perform actor operation => (perform actor operation site).2
  | .grant target permission role => (grant target permission role site).2
  | .revoke target permission role => (revoke target permission role site).2

def afterCalls (site : Site Memory) (calls : List Call) : Site Memory :=
  calls.foldl afterCall site

/-- The changes that a call with an effect asks the store for, and what it has made sure of. -/
inductive Asks (site : Site Memory) : Call → List Change → Prop
  | perform {actor : User} {operation : Operation} {changes : List Change} :
      site.Effects actor operation changes → Asks site (.perform actor operation) changes
  | grant {target : Object} {permission : Permission} {id : RoleId} {role : Role} :
      site.registry.applies target.model permission = true → site.store.roles.get? id = some role →
      Asks site (.grant target permission id) [.addPermission target id permission]
  | revoke {target : Object} {permission : Permission} {id : RoleId} :
      Asks site (.revoke target permission id) [.removePermission target id permission]

theorem afterCall_did (site : Site Memory) (call : Call) :
    site.Idle (site.afterCall call) ∨ ∃ changes m drawn, site.Asks call changes ∧
      Change.serveAll site.store changes = .ok m ∧
      site.afterCall call = { site with store := m, rolesDrawn := drawn } := by
  cases call with
  | perform actor operation =>
    rcases perform_did site actor operation with idle | ⟨changes, m, drawn, effects, served, same⟩
    · exact .inl idle
    · exact .inr ⟨changes, m, drawn, .perform effects, served, same⟩
  | grant target permission id =>
    rw [afterCall]
    rcases grant_run site target permission id with ⟨failure, failed⟩ | ⟨role, applies, found, granted⟩
    · rw [failed]
      exact .inl (idle_self site)
    · rw [granted]
      exact .inr ⟨_, _, site.rolesDrawn, .grant applies found, rfl, rfl⟩
  | revoke target permission id => exact .inr ⟨_, _, site.rolesDrawn, .revoke, rfl, rfl⟩

/-- Calls change the store alone, identifiers drawn aside. -/
theorem afterCalls_frame (site : Site Memory) (calls : List Call) :
    (site.afterCalls calls).registry = site.registry ∧
      (site.afterCalls calls).pinned = site.pinned := by
  induction calls generalizing site with
  | nil => exact ⟨rfl, rfl⟩
  | cons call rest ih =>
    have first : (site.afterCall call).registry = site.registry ∧
        (site.afterCall call).pinned = site.pinned := by
      rcases afterCall_did site call with ⟨drawn, idle⟩ | ⟨_, _, drawn, _, _, same⟩
      · rw [idle]
        exact ⟨rfl, rfl⟩
      · rw [same]
        exact ⟨rfl, rfl⟩
    obtain ⟨registry, pinned⟩ := ih (site.afterCall call)
    exact ⟨registry.trans first.1, pinned.trans first.2⟩

end Site

end Entitlement
