import Entitlement.Operation
import Entitlement.Proofs.Store.Change

/-!
# What operations do

`Effects` lists, for every operation that has an effect, what it finds and which changes it asks the
store for. `perform_settles` sums the code up: an operation leaves the store alone or serves such a list
of changes to the end, and where it fails it leaves the store alone.
-/

namespace Entitlement

namespace Change

variable {σ : Type} [Store σ]

/-- The store after some changes, all of which have to succeed. -/
def serveAll (store : σ) : List Change → Except Failure σ
  | [] => .ok store
  | change :: rest => do
    let store ← change.serve store
    serveAll store rest

theorem serveAll_cons_ok {store store' : σ} {change : Change} {rest : List Change} :
    serveAll store (change :: rest) = .ok store' ↔
      ∃ next, change.serve store = .ok next ∧ serveAll next rest = .ok store' := by
  constructor
  · exact bind_ok
  · rintro ⟨next, served, after⟩
    rw [serveAll, served]
    exact after

end Change

/-- Which edit of which role an operation stands for. -/
inductive Operation.Edits (registry : Registry) : Operation → RoleId → RoleEdit → Prop
  | grant {id : RoleId} {permission : Permission} {declared : LabelledPermission} :
      registry.validate permission = .ok declared →
      Edits registry (.grantToRole id permission) id (.grant permission)
  | revoke {id : RoleId} {permission : Permission} :
      Edits registry (.revokeFromRole id permission) id (.revoke permission)
  | attach {id : RoleId} {group name : String} : groupName group = .ok name →
      Edits registry (.attachGroup id group) id (.attach name)
  | detach {id : RoleId} {group : String} :
      Edits registry (.detachGroup id group) id (.detach (Text.trim group))

namespace Site

/-- The changes that an operation with an effect asks the store for, and what it has made sure of. -/
inductive Effects (site : Site Memory) (actor : User) : Operation → List Change → Prop
  | createRole {label name : String} {given : Option RoleId} {id : RoleId} :
      site.requireEverywhere actor createRoles = .ok () → filledText label = .ok name →
      id = given.getD (Uuid.drawn (site.rolesDrawn + 1)) →
      Effects site actor (.createRole label given) [.createRole (.bare id name),
        .record (roleEvent actor .roleCreated (.bare id name) ("created role '" ++ name ++ "'"))]
  | deleteRole {id : RoleId} {role : Role} : site.store.roles.get? id = some role →
      site.require deleteRoles (roleObject id) actor .forbidden = .ok () →
      Effects site actor (.deleteRole id) [.deleteEntriesOf id, .deleteRole id,
        .record (roleEvent actor .roleDeleted role ("deleted role '" ++ role.label ++ "' and " ++
          toString (site.store.deleteEntriesOf id).1 ++ " object entries"))]
  | editRole {operation : Operation} {id : RoleId} {edit normal : RoleEdit} {role : Role} :
      operation.Edits site.registry id edit → site.store.roles.get? id = some role →
      site.require editRoles (roleObject id) actor .forbidden = .ok () →
      edit.normal = .ok normal → role.changedBy normal = true →
      Effects site actor operation [.editRole id edit,
        .record (roleEvent actor .roleEdited (role.edit normal) (editDetail edit))]
  | addMember {group subject group' subject' : String} :
      site.requireEverywhere actor editRoles = .ok () →
      membership group subject = .ok (group', subject') →
      Effects site actor (.addMember group subject) [.addMember group' subject',
        .record (groupEvent actor group' ("added '" ++ subject' ++ "' to '" ++ group' ++ "'"))]
  | removeMember {group subject group' subject' : String} :
      site.requireEverywhere actor editRoles = .ok () →
      membership group subject = .ok (group', subject') →
      Effects site actor (.removeMember group subject) [.removeMember group' subject',
        .record (groupEvent actor group' ("removed '" ++ subject' ++ "' from '" ++ group' ++ "'"))]
  | grant {target : Object} {permission : Permission} {id : RoleId} {role : Role}
      {event : AuditEvent} : site.require editEntries target actor .forbidden = .ok () →
      site.registry.applies target.model permission = true → site.store.roles.get? id = some role →
      outcomeEvent? actor (site.store.addPermission target id permission).1
        ("granted '" ++ permission.toText ++ "' to role '" ++ id.toText ++ "'") = some event →
      Effects site actor (.grant target permission id)
        [.addPermission target id permission, .record event]
  | revoke {target : Object} {permission : Permission} {id : RoleId} {event : AuditEvent} :
      site.require editEntries target actor .forbidden = .ok () →
      outcomeEvent? actor (site.store.removePermission target id permission).1
        ("revoked '" ++ permission.toText ++ "' from role '" ++ id.toText ++ "'") = some event →
      Effects site actor (.revoke target permission id)
        [.removePermission target id permission, .record event]
  | setRelation {child parent : Object} {relation : String} :
      site.requireRelationEdit actor [child, parent] relation = .ok () →
      Effects site actor (.setRelation child relation parent) [.setRelation child relation parent]
  | clearRelation {child : Object} {relation : String} :
      site.requireRelationEdit actor [child] relation = .ok () →
      Effects site actor (.clearRelation child relation) [.clearRelation child relation]

/-! ### Runs that fail before they change anything -/

/-- Nothing is different but the identifiers drawn. -/
def Idle (site after : Site Memory) : Prop :=
  ∃ drawn, after = { site with rolesDrawn := drawn }

/-- The run fails and leaves the site idle, or succeeds and ends as told. -/
def Settles {α : Type} (run : Attempt (Site Memory) α) (site : Site Memory)
    (ends : Site Memory → Prop) : Prop :=
  (∃ failure after, run site = (.error failure, after) ∧ site.Idle after) ∨
    ∃ a after, run site = (.ok a, after) ∧ ends after

variable {α β : Type} {site : Site Memory} {ends : Site Memory → Prop}

theorem idle_self (site : Site Memory) : site.Idle site := ⟨site.rolesDrawn, rfl⟩

theorem Idle.store {after : Site Memory} (idle : site.Idle after) : after.store = site.store := by
  obtain ⟨_, rfl⟩ := idle
  rfl

theorem settles_fail {run : Attempt (Site Memory) α} {failure : Failure}
    (failed : run site = (.error failure, site)) : Settles run site ends :=
  .inl ⟨failure, site, failed, idle_self site⟩

theorem settles_ok {run : Attempt (Site Memory) α} {a : α} {after : Site Memory}
    (ran : run site = (.ok a, after)) (ended : ends after) : Settles run site ends :=
  .inr ⟨a, after, ran, ended⟩

/-- A look goes on from what it has seen. -/
theorem settles_look {f : Site Memory → Except Failure α} {next : α → Attempt (Site Memory) β}
    (goes : ∀ a, f site = .ok a → Settles (next a) site ends) :
    Settles (Attempt.look f >>= next) site ends := by
  cases seen : f site with
  | error failure =>
    apply settles_fail
    rw [Attempt.bind_apply, Attempt.look_apply, seen]
  | ok a =>
    have same : (Attempt.look f >>= next) site = next a site := by
      rw [Attempt.bind_apply, Attempt.look_apply, seen]
    unfold Settles
    rw [same]
    exact goes a seen

/-- A first step that fails must not have had an effect, and what follows one that succeeds must not fail. -/
theorem settles_bind {first : Attempt (Site Memory) α} {next : α → Attempt (Site Memory) β}
    (runs : (∃ failure, first site = (.error failure, site)) ∨
      ∃ a between, first site = (.ok a, between) ∧
        ∃ b after, next a between = (.ok b, after) ∧ ends after) :
    Settles (first >>= next) site ends := by
  unfold Settles
  rw [Attempt.bind_apply]
  rcases runs with ⟨failure, failed⟩ | ⟨a, between, ran, goes⟩
  · rw [failed]
    exact .inl ⟨failure, site, rfl, idle_self site⟩
  · rw [ran]
    exact .inr goes

/-- What is done with the answer of a run changes nothing. -/
theorem Settles.andReturn {run : Attempt (Site Memory) α} (settles : Settles run site ends)
    (f : α → β) : Settles (run >>= fun a => pure (f a)) site ends := by
  rcases settles with ⟨failure, after, failed, idle⟩ | ⟨a, after, ran, ended⟩
  · refine .inl ⟨failure, after, ?_, idle⟩
    rw [Attempt.bind_apply, failed]
  · refine .inr ⟨f a, after, ?_, ended⟩
    rw [Attempt.bind_apply, ran]
    rfl

theorem settles_read (f : Site Memory → Except Failure α) (kept : ends site) :
    Settles (Attempt.look f) site ends := by
  cases seen : f site with
  | error failure => exact settles_fail (by rw [Attempt.look_apply, seen])
  | ok a => exact settles_ok (by rw [Attempt.look_apply, seen]) kept

/-! ### Operation by operation -/

/-- What may have become of a site by an operation. -/
def Did (site : Site Memory) (actor : User) (operation : Operation) (after : Site Memory) : Prop :=
  site.Idle after ∨ ∃ changes m drawn, site.Effects actor operation changes ∧
    Change.serveAll site.store changes = .ok m ∧ after = { site with store := m, rolesDrawn := drawn }

variable {actor : User}

theorem role_ok_iff {id : RoleId} {role : Role} :
    site.role id = .ok role ↔ site.store.roles.get? id = some role := by
  have looked : Store.findRole site.store id = .ok (site.store.roles.get? id) := rfl
  unfold Site.role
  rw [looked]
  cases site.store.roles.get? id with
  | none => exact iff_of_false (fun read => by cases read) (fun found => by cases found)
  | some stored =>
    constructor
    · intro read
      exact congrArg some (Except.ok.inj read)
    · intro found
      exact congrArg Except.ok (Option.some.inj found)

/-- The event of a deletion. -/
def deletedEvent (actor : User) (role : Role) (removed : Nat) : AuditEvent :=
  roleEvent actor .roleDeleted role
    ("deleted role '" ++ role.label ++ "' and " ++ toString removed ++ " object entries")

theorem deleteRole_ok {after : Site Memory} {id : RoleId}
    (ran : deleteRole actor id site = (.ok (), after)) :
    ∃ role, site.store.roles.get? id = some role ∧ after = {
      site with
      store := (site.store.deleteRole id).record
        (deletedEvent actor role (site.store.deleteEntriesOf id).1) } := by
  obtain ⟨role, _, looked, ran⟩ := Attempt.bind_eq_ok.mp ran
  obtain ⟨read, rfl⟩ := Attempt.look_ok looked
  obtain ⟨_, _, looked, ran⟩ := Attempt.bind_eq_ok.mp ran
  obtain ⟨_, rfl⟩ := Attempt.look_ok looked
  refine ⟨role, role_ok_iff.mp read, ?_⟩
  rw [← Memory.deleteRole_after_entries]
  exact (congrArg Prod.snd ran).symm

theorem did_of_served {operation : Operation} {change : Change} {event : AuditEvent} {m : Memory}
    (effects : site.Effects actor operation [change, .record event])
    (served : change.serve site.store = .ok m) (drawn : Nat) :
    site.Did actor operation { site with store := m.record event, rolesDrawn := drawn } :=
  .inr ⟨_, m.record event, drawn, effects, Change.serveAll_cons_ok.mpr ⟨m, served, rfl⟩, rfl⟩

theorem change_run (request : Memory → Except Failure (α × Memory)) :
    (∃ failure, change request site = (.error failure, site)) ∨
      ∃ a m, request site.store = .ok (a, m) ∧
        change request site = (.ok a, { site with store := m }) := by
  unfold change Attempt.step
  dsimp only
  cases request site.store with
  | error failure => exact .inl ⟨failure, rfl⟩
  | ok answer => exact .inr ⟨answer.1, answer.2, rfl, rfl⟩

theorem put_run (request : Memory → Except Failure Memory) :
    (∃ failure, put request site = (.error failure, site)) ∨
      ∃ m, request site.store = .ok m ∧ put request site = (.ok (), { site with store := m }) := by
  unfold put
  rcases change_run fun store => (request store).map ((), ·) with refused | ⟨_, m, answered, ran⟩
  · exact .inl refused
  · obtain ⟨_, served, same⟩ := map_ok answered
    cases same
    exact .inr ⟨m, served, ran⟩

theorem put_of_ok {request : Memory → Except Failure Memory} {m : Memory}
    (served : request site.store = .ok m) : put request site = (.ok (), { site with store := m }) := by
  unfold put change Attempt.step
  dsimp only
  rw [served]
  rfl

theorem newRoleId_run (site : Site Memory) (given : Option RoleId) :
    ∃ drawn, newRoleId given site =
      (.ok (given.getD (Uuid.drawn (site.rolesDrawn + 1))), { site with rolesDrawn := drawn }) := by
  cases given with
  | none => exact ⟨_, rfl⟩
  | some id => exact ⟨_, rfl⟩

/-- Drawing an identifier leaves the site idle, so what it goes on with may fail. -/
theorem settles_newRoleId {given : Option RoleId} {next : RoleId → Attempt (Site Memory) β}
    (goes : ∀ drawn, Settles (next (given.getD (Uuid.drawn (site.rolesDrawn + 1))))
      { site with rolesDrawn := drawn } ends) :
    Settles (newRoleId given >>= next) site ends := by
  obtain ⟨drawn, named⟩ := newRoleId_run site given
  have same : (newRoleId given >>= next) site =
      next (given.getD (Uuid.drawn (site.rolesDrawn + 1))) { site with rolesDrawn := drawn } := by
    rw [Attempt.bind_apply, named]
  rcases goes drawn with ⟨failure, after, failed, drawn', rfl⟩ | ⟨b, after, ran, ended⟩
  · exact .inl ⟨failure, _, same.trans failed, drawn', rfl⟩
  · exact .inr ⟨b, after, same.trans ran, ended⟩

theorem createRole_settles (label : String) (given : Option RoleId) :
    Settles (createRole actor label given) site (site.Did actor (.createRole label given)) := by
  unfold createRole
  apply settles_look
  intro _ allowed
  apply settles_look
  intro name read
  apply settles_newRoleId
  intro drawn
  -- The label may be taken; once the role is stored, only the event is left to record.
  apply settles_bind
  refine (put_run _).imp_right ?_
  rintro ⟨m, served, ran⟩
  have effects : site.Effects actor (.createRole label given) _ :=
    .createRole allowed (refused_ok read) rfl
  exact ⟨_, _, ran, _, _, rfl, did_of_served effects served drawn⟩

theorem deleteRole_settles (id : RoleId) :
    Settles (deleteRole actor id) site (site.Did actor (.deleteRole id)) := by
  unfold deleteRole
  apply settles_look
  intro role read
  apply settles_look
  intro _ allowed
  have effects := Effects.deleteRole (role_ok_iff.mp read) allowed
  -- In memory nothing that is left can be refused, so the run computes to its end.
  exact settles_ok rfl (.inr ⟨_, _, site.rolesDrawn, effects, rfl, rfl⟩)

theorem editRole_settles {operation : Operation} {id : RoleId} {edit : RoleEdit}
    (edits : operation.Edits site.registry id edit) :
    Settles (editRole actor id edit) site (site.Did actor operation) := by
  unfold editRole
  apply settles_look
  intro role read
  apply settles_look
  intro _ allowed
  apply settles_bind
  refine (change_run _).imp_right ?_
  rintro ⟨changed, m, served, ran⟩
  refine ⟨changed, _, ran, ?_⟩
  obtain ⟨stored, normal, found, named, changes, edited⟩ := Memory.editRole_ok served
  cases (role_ok_iff.mp read).symm.trans found
  cases changed with
  | false =>
    rw [Memory.editRole_unchanged served]
    exact ⟨role, site, rfl, .inl (idle_self site)⟩
  | true =>
    have effects := Effects.editRole edits found allowed named changes.symm
    -- The role is looked up again for its event, and is there because the edit has put it there.
    have reread : Site.role { site with store := m } id = .ok (role.edit normal) := by
      rw [role_ok_iff, edited, SortedMap.get?_insert, if_pos rfl]
    have served := congrArg (Except.map Prod.snd) served
    have did := did_of_served effects served site.rolesDrawn
    refine ⟨role.edit normal, _, ?_, did⟩
    simp only [Bool.not_true, Bool.false_eq_true, if_false, Attempt.bind_apply, Attempt.look_apply,
      reread]
    rfl

theorem membership_ok {group subject group' subject' : String}
    (read : membership group subject = .ok (group', subject')) :
    (Text.allBlank group = false ∧ Text.allBlank subject = false) ∧
      group' = Text.trim group ∧ subject' = Text.trim subject := by
  unfold membership at read
  split at read
  · cases read
  · rename_i filled
    rw [Bool.not_eq_true, Bool.or_eq_false_iff] at filled
    cases read
    exact ⟨filled, rfl, rfl⟩

theorem addMember_settles (group subject : String) :
    Settles (addMember actor group subject) site (site.Did actor (.addMember group subject)) := by
  unfold addMember
  apply settles_look
  intro _ allowed
  apply settles_look
  intro names read
  have effects := Effects.addMember allowed read
  exact settles_ok rfl (did_of_served effects rfl site.rolesDrawn)

theorem removeMember_settles (group subject : String) :
    Settles (removeMember actor group subject) site
      (site.Did actor (.removeMember group subject)) := by
  unfold removeMember
  apply settles_look
  intro _ allowed
  apply settles_look
  intro names read
  have effects := Effects.removeMember allowed read
  exact settles_ok rfl (did_of_served effects rfl site.rolesDrawn)

theorem grant_run (site : Site Memory) (target : Object) (permission : Permission) (id : RoleId) :
    (∃ failure, grant target permission id site = (.error failure, site)) ∨
      ∃ role, site.registry.applies target.model permission = true ∧
        site.store.roles.get? id = some role ∧
        grant target permission id site = (.ok (site.store.addPermission target id permission).1,
          { site with store := (site.store.addPermission target id permission).2 }) := by
  unfold grant
  rw [Attempt.bind_apply, Attempt.look_apply]
  dsimp only
  cases applies : site.registry.applies target.model permission with
  | false => exact .inl ⟨_, rfl⟩
  | true =>
    cases read : site.role id with
    | error failure =>
      refine .inl ⟨failure, ?_⟩
      simp [Attempt.bind_apply, Attempt.look_apply, read]
    | ok role =>
      refine .inr ⟨role, rfl, role_ok_iff.mp read, ?_⟩
      simp [Attempt.bind_apply, Attempt.look_apply, read]
      rfl

theorem revoke_run (site : Site Memory) (target : Object) (permission : Permission) (id : RoleId) :
    revoke target permission id site = (.ok (site.store.removePermission target id permission).1,
      { site with store := (site.store.removePermission target id permission).2 }) := rfl

/-- What has no event has no effect, or no entry. -/
theorem outcomeEvent?_eq_none {outcome : Outcome} {detail : String}
    (silent : outcomeEvent? actor outcome detail = none) :
    outcome.effect = .unchanged ∨ outcome.entry = none := by
  unfold outcomeEvent? at silent
  cases effect : outcome.effect with
  | unchanged => exact .inl rfl
  | created | edited | deleted =>
    rw [effect] at silent
    cases entry : outcome.entry with
    | none => exact .inr rfl
    | some entry =>
      rw [entry] at silent
      cases silent

theorem did_of_outcome {operation : Operation} (change : Change) {outcome : Outcome} {m : Memory}
    {detail : String} (served : change.serve site.store = .ok m)
    (kept : outcome.effect = .unchanged ∨ outcome.entry = none → m = site.store)
    (effects : ∀ event, outcomeEvent? actor outcome detail = some event →
      site.Effects actor operation [change, .record event]) :
    ∃ answer after, (recordOutcome actor outcome detail >>= fun _ => pure outcome)
      { site with store := m } = (.ok answer, after) ∧ site.Did actor operation after := by
  unfold recordOutcome
  cases told : outcomeEvent? actor outcome detail with
  | none =>
    rw [kept (outcomeEvent?_eq_none told)]
    exact ⟨outcome, site, rfl, .inl (idle_self site)⟩
  | some event =>
    exact ⟨outcome, _, rfl, did_of_served (effects event told) served site.rolesDrawn⟩

theorem grantFor_settles (target : Object) (permission : Permission) (id : RoleId) :
    Settles (grantFor actor target permission id) site
      (site.Did actor (.grant target permission id)) := by
  unfold grantFor
  apply settles_look
  intro _ allowed
  apply settles_bind
  refine (grant_run site target permission id).imp_right ?_
  rintro ⟨role, applies, found, granted⟩
  refine ⟨_, _, granted, did_of_outcome (.addPermission target id permission) rfl
    Memory.addPermission_unchanged ?_⟩
  intro event told
  exact .grant allowed applies found told

theorem revokeFor_settles (target : Object) (permission : Permission) (id : RoleId) :
    Settles (revokeFor actor target permission id) site
      (site.Did actor (.revoke target permission id)) := by
  unfold revokeFor
  apply settles_look
  intro _ allowed
  apply settles_bind
  refine .inr ⟨_, _, revoke_run site target permission id, ?_⟩
  refine did_of_outcome (.removePermission target id permission) rfl
    Memory.removePermission_unchanged ?_
  intro event told
  exact .revoke allowed told

theorem setRelation_settles (child : Object) (relation : String) (parent : Object) :
    Settles (setRelation actor child relation parent) site
      (site.Did actor (.setRelation child relation parent)) := by
  unfold setRelation
  apply settles_look
  intro _ allowed
  have effects := Effects.setRelation allowed
  rcases put_run fun store => Store.setRelation store child relation parent with
    ⟨failure, refused⟩ | ⟨m, served, ran⟩
  · exact settles_fail refused
  · refine settles_ok ran (.inr ⟨_, m, site.rolesDrawn, effects, ?_, rfl⟩)
    exact Change.serveAll_cons_ok.mpr ⟨m, served, rfl⟩

theorem clearRelation_settles (child : Object) (relation : String) :
    Settles (clearRelation actor child relation) site
      (site.Did actor (.clearRelation child relation)) := by
  unfold clearRelation
  apply settles_look
  intro _ allowed
  have effects := Effects.clearRelation allowed
  exact settles_ok rfl (.inr ⟨_, _, site.rolesDrawn, effects, rfl, rfl⟩)

/-- An operation serves the changes that its effect consists of, or leaves the store alone; and it leaves
the store alone if it fails. -/
theorem perform_settles (actor : User) (operation : Operation) :
    Settles (perform actor operation) site (site.Did actor operation) := by
  cases operation with
  | createRole label given => exact (createRole_settles label given).andReturn _
  | deleteRole id => exact (deleteRole_settles id).andReturn _
  | grantToRole id permission =>
    apply Settles.andReturn
    unfold grantToRole
    apply settles_look
    intro declared known
    exact editRole_settles (.grant known)
  | revokeFromRole id permission => exact (editRole_settles .revoke).andReturn _
  | attachGroup id group =>
    apply Settles.andReturn
    unfold attachGroup
    apply settles_look
    intro name read
    exact editRole_settles (.attach (refused_ok read))
  | detachGroup id group => exact (editRole_settles .detach).andReturn _
  | addMember group subject => exact (addMember_settles group subject).andReturn _
  | removeMember group subject => exact (removeMember_settles group subject).andReturn _
  | grant target permission id => exact (grantFor_settles target permission id).andReturn _
  | revoke target permission id => exact (revokeFor_settles target permission id).andReturn _
  | setRelation child relation parent =>
    exact (setRelation_settles child relation parent).andReturn _
  | clearRelation child relation => exact (clearRelation_settles child relation).andReturn _
  | _ => exact settles_read _ (.inl (idle_self site))

theorem perform_did (site : Site Memory) (actor : User) (operation : Operation) :
    site.Did actor operation (perform actor operation site).2 := by
  rcases perform_settles actor operation with
    ⟨failure, after, failed, idle⟩ | ⟨answer, after, ran, did⟩
  · rw [failed]
    exact .inl idle
  · rw [ran]
    exact did

end Site

end Entitlement
