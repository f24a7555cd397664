import Entitlement.Proofs.Administration.Integrity
import Entitlement.Proofs.Store.RoleTables

/-!
# What operations leave behind

A service that fails leaves nothing behind (`Site.failed_leaves_nothing`). An operation that succeeds
leaves one event behind if it changes roles, members or entries and none if it does not, unless it adds
a member who is one already or removes one who is none: that leaves an event of a change that was none
(`Site.events_mirror_changes_iff`).
-/

namespace Entitlement

/-! ### Services that fail -/

namespace Site

/-- What a site does for others: an operation on behalf of a user, or what operations are made of, on
behalf of nobody. -/
inductive Service where
  | perform (actor : User) (operation : Operation)
  | grant (target : Object) (permission : Permission) (role : RoleId)
  | revoke (target : Object) (permission : Permission) (role : RoleId)
  | entriesOn (target : Object)
  | inherited (target : Object) (role : RoleId)
  | check (permission : Permission) (target : Object) (user : User)

/-- The run of a service; what it answers is left out. -/
def Service.run : Service → Attempt (Site Memory) Unit
  | .perform actor operation => do
    let _ ← Site.perform actor operation
  | .grant target permission role => do
    let _ ← Site.grant target permission role
  | .revoke target permission role => do
    let _ ← Site.revoke target permission role
  | .entriesOn target => .look fun site => (site.entriesOn target).map fun _ => ()
  | .inherited target role => .look fun site => (site.inherited target role).map fun _ => ()
  | .check permission target user =>
    .look fun site => (site.check permission target user).map fun _ => ()

/-- A service that fails leaves roles, members, entries, relations and the audit trail as they were, and
everything else but the count of the identifiers drawn. -/
theorem failed_leaves_nothing (site after : Site Memory) (service : Service) (failure : Failure)
    (failed : service.run site = (.error failure, after)) :
    after.store = site.store ∧ site.Idle after := by
  have idle : site.Idle after := by
    cases service with
    | perform actor operation =>
      rcases perform_settles actor operation with
        ⟨failure', after', failed', idle⟩ | ⟨answer, after', ran, _⟩
      · rw [Service.run, Attempt.bind_apply, failed'] at failed
        cases failed
        exact idle
      · rw [Service.run, Attempt.bind_apply, ran] at failed
        cases failed
    | grant target permission role =>
      rcases grant_run site target permission role with ⟨failure', failed'⟩ | ⟨_, _, _, ran⟩
      · rw [Service.run, Attempt.bind_apply, failed'] at failed
        cases failed
        exact idle_self site
      · rw [Service.run, Attempt.bind_apply, ran] at failed
        cases failed
    | revoke target permission role =>
      rw [Service.run, Attempt.bind_apply, revoke_run] at failed
      cases failed
    | entriesOn | inherited | check =>
      cases (Prod.mk.inj failed).2
      exact idle_self site
  exact ⟨idle.store, idle⟩

open Sample in
/-- That the label is taken comes out when an identifier has been drawn. -/
theorem failed_leaves_nothing_in_office :
    let hiring := Service.run (.perform eve (.createRole " head" none)) office
    hiring.1 = .error (.labelTaken "head") ∧ hiring.2.rolesDrawn = 1 ∧
      hiring.2.store = office.store := by
  intro hiring
  have refused : hiring.1 = .error (.labelTaken "head") := by decide +kernel
  have drawn : hiring.2.rolesDrawn = 1 := by decide +kernel
  have failed : hiring = (.error (.labelTaken "head"), hiring.2) := Prod.ext refused rfl
  exact ⟨refused, drawn, (failed_leaves_nothing office hiring.2 _ _ failed).1⟩

end Site

/-! ### Changes of members -/

namespace Memory

variable {m m' : Memory} {group subject : String}

/-- No group is stored without members. -/
def Peopled (m : Memory) : Prop :=
  ∀ group subjects, m.members.get? group = some subjects → subjects.isEmpty = false

theorem empty_peopled : (∅ : Memory).Peopled := by
  intro group subjects found
  cases found

theorem addMember_members_eq_iff :
    (m.addMember group subject).members = m.members ↔ subject ∈ m.group group := by
  constructor
  · intro same
    have now : subject ∈ (m.addMember group subject).group group :=
      mem_group_addMember.mpr (.inl ⟨rfl, rfl⟩)
    unfold Memory.group at now
    rw [same] at now
    exact now
  · intro member
    obtain ⟨subjects, stored, _⟩ := mem_group_iff.mp member
    have own : m.group group = subjects := by rw [Memory.group, stored]; rfl
    rw [addMember, SortedSet.insert_of_mem member, own, SortedMap.insert_of_get? stored]

theorem removeMember_members_eq_iff (peopled : m.Peopled) :
    (m.removeMember group subject).members = m.members ↔ subject ∉ m.group group := by
  constructor
  · intro same member
    have now : subject ∈ (m.removeMember group subject).group group := by
      unfold Memory.group
      rw [same]
      exact member
    exact (mem_group_removeMember.mp now).2 ⟨rfl, rfl⟩
  · intro stranger
    have left : (m.group group).erase subject = m.group group := SortedSet.erase_of_not_mem stranger
    unfold removeMember
    rw [left]
    cases stored : m.members.get? group with
    | none =>
      have own : m.group group = ∅ := by rw [Memory.group, stored]; rfl
      rw [own]
      exact SortedMap.erase_of_get? stored
    | some subjects =>
      have own : m.group group = subjects := by rw [Memory.group, stored]; rfl
      rw [own]
      dsimp only
      rw [peopled group subjects stored]
      exact SortedMap.insert_of_get? stored

theorem serve_peopled (peopled : m.Peopled) {change : Change} (served : change.serve m = .ok m') :
    m'.Peopled := by
  cases change with
  | addMember group subject =>
    cases served
    exact SortedMap.forall_insert (SortedSet.isEmpty_insert _ _) fun name subjects found _ =>
      peopled name subjects found
  | removeMember group subject =>
    cases served
    unfold removeMember
    dsimp only
    split
    · exact SortedMap.forall_erase peopled
    · rename_i filled
      exact SortedMap.forall_insert (Bool.eq_false_iff.mpr filled) fun name subjects found _ =>
        peopled name subjects found
  | _ =>
    intro name subjects found
    rw [(serve_frame served).members (by simp [Change.areas])] at found
    exact peopled name subjects found

theorem run_peopled (peopled : m.Peopled) (changes : List Change) :
    (Change.run m changes).Peopled := by
  induction changes generalizing m with
  | nil => exact peopled
  | cons change rest ih =>
    rw [Change.run_cons]
    cases served : change.serve m with
    | error failure => exact ih peopled
    | ok next => exact ih (serve_peopled peopled served)

/-! ### Changes of roles and entries -/

theorem edit_ne_of_changed {role : Role} {edit : RoleEdit} (differs : role.changedBy edit = true) :
    role.edit edit ≠ role := by
  intro same
  cases edit with
  | grant permission =>
    have apart : permission ∉ role.permissions := by
      simpa [Role.changedBy, SortedSet.mem_iff] using differs
    have mem : permission ∈ (role.edit (.grant permission)).permissions :=
      SortedSet.mem_insert.mpr (.inl rfl)
    rw [same] at mem
    exact apart mem
  | revoke permission =>
    have mem : permission ∈ (role.edit (.revoke permission)).permissions := by
      rw [same]
      exact differs
    exact (SortedSet.mem_erase.mp mem).1 rfl
  | attach group =>
    have apart : group ∉ role.groups := by
      simpa [Role.changedBy, SortedSet.mem_iff] using differs
    have mem : group ∈ (role.edit (.attach group)).groups := SortedSet.mem_insert.mpr (.inl rfl)
    rw [same] at mem
    exact apart mem
  | detach group =>
    have mem : group ∈ (role.edit (.detach group)).groups := by
      rw [same]
      exact differs
    exact (SortedSet.mem_erase.mp mem).1 rfl

theorem createRole_roles_ne {role : Role} (created : m.createRole role = .ok m') :
    m'.roles ≠ m.roles ∧ m'.events = m.events := by
  obtain ⟨fresh, rfl⟩ := createRole_ok_iff.mp created
  refine ⟨SortedMap.insert_ne fun found => ?_, rfl⟩
  exact fresh role.id role found rfl

theorem editRole_roles_ne {id : RoleId} {edit : RoleEdit}
    (edited : m.editRole id edit = .ok (true, m')) : m'.roles ≠ m.roles ∧ m'.events = m.events := by
  obtain ⟨role, normal, found, _, changes, rfl⟩ := editRole_ok edited
  refine ⟨SortedMap.insert_ne fun same => ?_, rfl⟩
  rw [found] at same
  exact edit_ne_of_changed changes.symm (Option.some.inj same).symm

variable {target : Object} {role : RoleId} {permission : Permission}

theorem addPermission_events : (m.addPermission target role permission).2.events = m.events := by
  rw [addPermission_frame]

theorem removePermission_events :
    (m.removePermission target role permission).2.events = m.events := by
  rw [removePermission_frame]

theorem addPermission_entries_ne
    (effective : (m.addPermission target role permission).1.effect ≠ .unchanged) :
    (m.addPermission target role permission).2.entries ≠ m.entries := by
  unfold addPermission at effective ⊢
  split
  · rename_i entry found
    rw [found] at effective
    dsimp only at effective ⊢
    cases lists : entry.lists permission with
    | true =>
      rw [lists] at effective
      exact absurd rfl effective
    | false =>
      apply SortedMap.insert_ne
      rw [found]
      intro same
      have mem : permission ∈ (entry.add permission).permissions :=
        SortedSet.mem_insert.mpr (.inl rfl)
      rw [← Option.some.inj same] at mem
      exact Bool.eq_false_iff.mp lists mem
  · rename_i absent
    apply SortedMap.insert_ne
    rw [absent]
    intro same
    cases same

theorem removePermission_entries_ne
    (effective : (m.removePermission target role permission).1.effect ≠ .unchanged) :
    (m.removePermission target role permission).2.entries ≠ m.entries := by
  unfold removePermission at effective ⊢
  split
  · rename_i absent
    rw [absent] at effective
    exact absurd rfl effective
  · rename_i entry found
    rw [found] at effective
    dsimp only at effective ⊢
    split
    · rename_i lists
      split
      · apply SortedMap.erase_ne
        rw [found]
        intro same
        cases same
      · apply SortedMap.insert_ne
        rw [found]
        intro same
        have mem : permission ∈ (entry.remove permission).permissions := by
          rw [← Option.some.inj same]
          exact lists
        exact (SortedSet.mem_erase.mp mem).1 rfl
    · rename_i unlisted
      rw [if_neg unlisted] at effective
      exact absurd rfl effective

/-- What is audited of a store. -/
def audited (m : Memory) :
    SortedMap RoleId Role × SortedMap String (SortedSet String) × SortedMap EntryKey Entry :=
  (m.roles, m.members, m.entries)

/-- There is one event more if what is audited has changed, and none if not. -/
def Mirrored (m m' : Memory) : Prop :=
  (m'.audited ≠ m.audited ∧ ∃ event, m'.events = event :: m.events) ∨
    (m'.audited = m.audited ∧ m'.events = m.events)

theorem audited_eq_iff :
    m'.audited = m.audited ↔
      m'.roles = m.roles ∧ m'.members = m.members ∧ m'.entries = m.entries := by
  rw [audited, audited, Prod.mk.injEq, Prod.mk.injEq]

theorem Mirrored.recorded {event : AuditEvent}
    (differs : m'.roles ≠ m.roles ∨ m'.members ≠ m.members ∨ m'.entries ≠ m.entries)
    (silent : m'.events = m.events) : m.Mirrored (m'.record event) := by
  refine .inl ⟨fun same => ?_, event.toEntry, congrArg (event.toEntry :: ·) silent⟩
  obtain ⟨roles, members, entries⟩ := audited_eq_iff.mp same
  rcases differs with differs | differs | differs
  · exact differs roles
  · exact differs members
  · exact differs entries

end Memory

/-- An operation that adds a member who is one already, or removes one who is none. -/
def Operation.Repeats (m : Memory) : Operation → Prop
  | .addMember group subject => ∃ group' subject',
    Site.membership group subject = .ok (group', subject') ∧ subject' ∈ m.group group'
  | .removeMember group subject => ∃ group' subject',
    Site.membership group subject = .ok (group', subject') ∧ subject' ∉ m.group group'
  | _ => False

/-! ### One event for a change -/

namespace Site

variable {site : Site Memory} {actor : User} {operation : Operation} {changes : List Change}
  {m : Memory}

theorem outcomeEvent?_effective {outcome : Outcome} {detail : String} {event : AuditEvent}
    (told : outcomeEvent? actor outcome detail = some event) : outcome.effect ≠ .unchanged := by
  intro same
  unfold outcomeEvent? at told
  rw [same] at told
  cases told

/-- The changes of an operation that repeats nothing change what is audited and come with one event;
those of relations leave both alone. -/
theorem Effects.mirrored (peopled : site.store.Peopled)
    (effects : site.Effects actor operation changes) (fresh : ¬ operation.Repeats site.store)
    (served : Change.serveAll site.store changes = .ok m) : site.store.Mirrored m := by
  cases effects with
  | createRole =>
    obtain ⟨next, created, recorded⟩ := Change.serveAll_cons_ok.mp served
    obtain ⟨differs, silent⟩ := Memory.createRole_roles_ne created
    cases recorded
    exact .recorded (.inl differs) silent
  | deleteRole found =>
    cases served
    have differs := SortedMap.erase_ne (Option.ne_none_iff_exists'.mpr ⟨_, found⟩)
    exact .recorded (.inl differs) rfl
  | editRole edits found allowed read differs =>
    obtain ⟨next, served, recorded⟩ := Change.serveAll_cons_ok.mp served
    obtain ⟨⟨changed, _⟩, edited, rfl⟩ := map_ok served
    obtain ⟨stored, normal, found', read', same, _⟩ := Memory.editRole_ok edited
    cases found.symm.trans found'
    cases read.symm.trans read'
    rw [same, differs] at edited
    obtain ⟨differs, silent⟩ := Memory.editRole_roles_ne edited
    cases recorded
    exact .recorded (.inl differs) silent
  | @addMember group subject group' subject' allowed read =>
    cases served
    have differs : (site.store.addMember group' subject').members ≠ site.store.members := by
      intro same
      exact fresh ⟨group', subject', read, Memory.addMember_members_eq_iff.mp same⟩
    exact .recorded (.inr (.inl differs)) rfl
  | @removeMember group subject group' subject' allowed read =>
    cases served
    have differs : (site.store.removeMember group' subject').members ≠ site.store.members := by
      intro same
      exact fresh ⟨group', subject', read, (Memory.removeMember_members_eq_iff peopled).mp same⟩
    exact .recorded (.inr (.inl differs)) rfl
  | grant allowed applies found told =>
    cases served
    have differs := Memory.addPermission_entries_ne (outcomeEvent?_effective told)
    exact .recorded (.inr (.inr differs)) Memory.addPermission_events
  | revoke allowed told =>
    cases served
    have differs := Memory.removePermission_entries_ne (outcomeEvent?_effective told)
    exact .recorded (.inr (.inr differs)) Memory.removePermission_events
  | setRelation =>
    obtain ⟨next, served, rest⟩ := Change.serveAll_cons_ok.mp served
    cases rest
    rw [Memory.setRelation_ok served]
    exact .inr ⟨rfl, rfl⟩
  | clearRelation =>
    cases served
    exact .inr ⟨rfl, rfl⟩

/-- An operation that repeats what is so already changes nothing that is audited, and still comes with
an event. -/
theorem repeats_settles (peopled : site.store.Peopled) (repeats : operation.Repeats site.store) :
    Settles (perform actor operation) site fun after =>
      after.store.audited = site.store.audited ∧
        ∃ event, after.store.events = event :: site.store.events := by
  cases operation with
  | addMember group subject =>
    obtain ⟨group', subject', named, member⟩ := repeats
    apply Settles.andReturn
    unfold addMember
    apply settles_look
    intro _ _
    apply settles_look
    intro names read
    cases named.symm.trans read
    have same := Memory.addMember_members_eq_iff.mpr member
    exact settles_ok rfl ⟨Memory.audited_eq_iff.mpr ⟨rfl, same, rfl⟩, _, rfl⟩
  | removeMember group subject =>
    obtain ⟨group', subject', named, stranger⟩ := repeats
    apply Settles.andReturn
    unfold removeMember
    apply settles_look
    intro _ _
    apply settles_look
    intro names read
    cases named.symm.trans read
    have same := (Memory.removeMember_members_eq_iff peopled).mpr stranger
    exact settles_ok rfl ⟨Memory.audited_eq_iff.mpr ⟨rfl, same, rfl⟩, _, rfl⟩
  | _ => exact repeats.elim

theorem repeated_of_ok (peopled : site.store.Peopled) (repeats : operation.Repeats site.store)
    {answer : Answer} (ok : (perform actor operation site).1 = .ok answer) :
    (perform actor operation site).2.store.audited = site.store.audited ∧
      ∃ event, (perform actor operation site).2.store.events = event :: site.store.events := by
  have settles : Settles (perform actor operation) site _ := repeats_settles peopled repeats
  rcases settles with ⟨failure, after, failed, _⟩ | ⟨_, after, done, ended⟩
  · rw [failed] at ok
    cases ok
  · rw [done]
    exact ended

theorem mirrored_of_fresh (peopled : site.store.Peopled)
    (fresh : ¬ (operation.Repeats site.store ∧
      ∃ answer, (perform actor operation site).1 = .ok answer)) :
    site.store.Mirrored (perform actor operation site).2.store := by
  have still {after : Site Memory} (idle : site.Idle after) : site.store.Mirrored after.store := by
    rw [idle.store]
    exact .inr ⟨rfl, rfl⟩
  have settles : Settles (perform actor operation) site _ := perform_settles actor operation
  rcases settles with ⟨failure, after, failed, idle⟩ | ⟨answer, after, done, did⟩
  · rw [failed]
    exact still idle
  · rw [done] at fresh ⊢
    rcases did with idle | ⟨_, m, drawn, effects, served, rfl⟩
    · exact still idle
    · have fresh : ¬ operation.Repeats site.store := fun repeats => fresh ⟨repeats, answer, rfl⟩
      exact effects.mirrored peopled fresh served

/-- An operation of a site whose store has come from an empty one mirrors what it changes in the audit
trail, unless it succeeds in adding a member who is one already or in removing one who is none. Then it
changes nothing that is audited, and leaves one event. -/
theorem events_mirror_changes_iff (site : Site Memory) (changes : List Change) (actor : User)
    (operation : Operation) :
    let before : Memory := Change.run ∅ changes
    let ran := perform actor operation { site with store := before }
    (before.Mirrored ran.2.store ↔
      ¬ (operation.Repeats before ∧ ∃ answer, ran.1 = .ok answer)) ∧
    (operation.Repeats before ∧ (∃ answer, ran.1 = .ok answer) →
      ran.2.store.audited = before.audited ∧
        ∃ event, ran.2.store.events = event :: before.events) := by
  intro before ran
  let start : Site Memory := { site with store := before }
  have peopled : start.store.Peopled := Memory.run_peopled Memory.empty_peopled changes
  have repeated : operation.Repeats before ∧ (∃ answer, ran.1 = .ok answer) →
      ran.2.store.audited = before.audited ∧
        ∃ event, ran.2.store.events = event :: before.events :=
    fun ⟨repeats, _, ok⟩ => repeated_of_ok peopled repeats ok
  refine ⟨⟨fun mirrored repeats => ?_, mirrored_of_fresh peopled⟩, repeated⟩
  obtain ⟨same, event, more⟩ := repeated repeats
  rcases mirrored with ⟨differs, _⟩ | ⟨_, silent⟩
  · exact differs same
  · exact List.cons_ne_self event _ (more.symm.trans silent)

end Site

namespace Sample

/-- One clerk is in. -/
def staffed : List Change := [.addMember "clerks" "ann"]

end Sample

open Sample in
/-- The clerk is put in again, and somebody who was never in is taken out: nobody is in who was not
before, and the trail tells of two changes. -/
theorem Site.members_repeated :
    let before : Memory := Change.run ∅ staffed
    let after := ({ office with store := before } : Site Memory).after
      [(root, .addMember "clerks" "ann"), (root, .removeMember "clerks" "bob")]
    after.store.audited = before.audited ∧
      after.store.events.map (·.detail) =
        [some "removed 'bob' from 'clerks'", some "added 'ann' to 'clerks'"] := by
  decide +kernel

end Entitlement
