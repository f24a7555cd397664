import Entitlement.Proofs.Access.Contents
import Entitlement.Proofs.Administration.Integrity
import Entitlement.Proofs.Administration.Lives

/-!
# What has been done

Roles are created and deleted and entries made: these are the deeds of operations, as their answers have
it. What an operation writes goes with its deed (`Site.perform_written`), so the trail, the roles and the
entries stay in step with what has been done (`Memory.Tracked`). In the end the trail tells the life of
every entry, and stored are those whose life has not ended, but for the ones that went with their roles
(`Site.trail_tells_lives`).
-/

namespace Entitlement

/-! ### Deeds -/

/-- What an operation does that the lives of roles and entries begin and end with, as it answers. -/
inductive Deed where
  | createdRole (id : RoleId)
  | deletedRole (id : RoleId)
  | madeEntry (id : EntryId) (role : RoleId)
deriving DecidableEq

def Outcome.deed? : Outcome → Option Deed
  | ⟨.created, some entry⟩ => some (.madeEntry entry.id entry.role)
  | _ => none

def Operation.deed? : Operation → Except Failure Answer → Option Deed
  | .createRole _ _, .ok (.created role) => some (.createdRole role.id)
  | .deleteRole id, .ok _ => some (.deletedRole id)
  | .grant _ _ _, .ok (.outcome outcome) => outcome.deed?
  | _, _ => none

/-- The roles that are created, as often as they are. -/
def Deed.createdRoles (deeds : List Deed) : List RoleId :=
  deeds.filterMap fun
    | .createdRole id => some id
    | _ => none

theorem Deed.mem_createdRoles {deeds : List Deed} {id : RoleId} :
    id ∈ createdRoles deeds ↔ .createdRole id ∈ deeds := by
  rw [createdRoles, List.mem_filterMap]
  constructor
  · rintro ⟨deed, mem, same⟩
    cases deed with
    | createdRole other =>
      cases same
      exact mem
    | deletedRole | madeEntry => cases same
  · intro mem
    exact ⟨_, mem, rfl⟩

namespace Memory

variable {m m' : Memory} {deeds : List Deed} {deed? : Option Deed}

/-- Roles come by being created and do not stay when they are deleted. -/
structure RolesWritten (m m' : Memory) (deed? : Option Deed) : Prop where
  kept : ∀ id, m'.roles.get? id ≠ none →
    (m.roles.get? id ≠ none ∧ deed? ≠ some (.deletedRole id)) ∨ deed? = some (.createdRole id)
  deleted : ∀ id, deed? = some (.deletedRole id) → m.roles.get? id ≠ none

/-- Entries are left alone but for those of a role that is deleted, or one of them is made, edited or
emptied, of which the trail then tells. -/
inductive EntriesWritten (m m' : Memory) : Option Deed → Prop
  | kept {deed? : Option Deed} (unmade : ∀ id role, deed? ≠ some (.madeEntry id role))
      (fewer : ∀ key entry, m'.entries.get? key = some entry → m.entries.get? key = some entry)
      (gone : ∀ key entry, m.entries.get? key = some entry →
        m'.entries.get? key = some entry ∨ deed? = some (.deletedRole entry.role))
      (made : m'.entriesMade = m.entriesMade) (told : m'.told = m.told) : EntriesWritten m m' deed?
  | made {key : EntryKey} {entry : Entry} (absent : m.entries.get? key = none)
      (numbered : entry.id = .numbered (m.entriesMade + 1))
      (entries : m'.entries = m.entries.insert key entry)
      (made : m'.entriesMade = m.entriesMade + 1) (tells : m.Tells m' entry.id .entryCreated) :
      EntriesWritten m m' (some (.madeEntry entry.id entry.role))
  | edited {key : EntryKey} {entry entry' : Entry} (found : m.entries.get? key = some entry)
      (same : entry'.id = entry.id ∧ entry'.role = entry.role)
      (entries : m'.entries = m.entries.insert key entry') (made : m'.entriesMade = m.entriesMade)
      (tells : m.Tells m' entry.id .entryEdited) : EntriesWritten m m' none
  | emptied {key : EntryKey} {entry : Entry} (found : m.entries.get? key = some entry)
      (entries : m'.entries = m.entries.erase key) (made : m'.entriesMade = m.entriesMade)
      (tells : m.Tells m' entry.id .entryDeleted) : EntriesWritten m m' none

theorem Chronicled.step (chronicled : m.Chronicled) (written : EntriesWritten m m' deed?) :
    m'.Chronicled := by
  cases written with
  | kept _ fewer _ made told => exact chronicled.of_fewer fewer made told
  | made _ numbered entries made tells => exact chronicled.make numbered entries made tells
  | edited found same entries made tells => exact chronicled.edit found same.1 entries made tells
  | emptied found entries made tells => exact chronicled.empty found entries made tells

/-! ### Roles and deeds -/

/-- The stored roles were created and have not been deleted, and no role was deleted before it was
created. -/
structure Housed (m : Memory) (deeds : List Deed) : Prop where
  stored : ∀ id, m.roles.get? id ≠ none → .createdRole id ∈ deeds ∧ .deletedRole id ∉ deeds
  deleted : ∀ id, .deletedRole id ∈ deeds → .createdRole id ∈ deeds

theorem Housed.step (housed : m.Housed deeds) (written : RolesWritten m m' deed?)
    (fresh : ∀ id, deed? = some (.createdRole id) → .createdRole id ∉ deeds) :
    m'.Housed (deeds ++ deed?.toList) where
  stored id present := by
    rw [List.mem_append, List.mem_append, Option.mem_toList, Option.mem_toList, not_or]
    rcases written.kept id present with ⟨before, undeleted⟩ | created
    · obtain ⟨created, deleted⟩ := housed.stored id before
      exact ⟨.inl created, deleted, undeleted⟩
    · have new := fresh id created
      refine ⟨.inr created, fun deleted => new (housed.deleted id deleted), fun deleted => ?_⟩
      cases created.symm.trans deleted
  deleted id mem := by
    rw [List.mem_append, Option.mem_toList] at mem ⊢
    rcases mem with deleted | deleted
    · exact .inl (housed.deleted id deleted)
    · exact .inl (housed.stored id (written.deleted id deleted)).1

/-! ### Entries and deeds -/

/-- The entries that are told of were made, each for one role; the stored ones are among them, and an
entry that is open and not stored has gone with its role. -/
structure Accounted (m : Memory) (deeds : List Deed) : Prop where
  stored : ∀ key entry, m.entries.get? key = some entry → .madeEntry entry.id entry.role ∈ deeds
  once : ∀ id role role', .madeEntry id role ∈ deeds → .madeEntry id role' ∈ deeds → role = role'
  told : ∀ id role, .madeEntry id role ∈ deeds → m.told id ≠ []
  gone : ∀ id edits, m.told id = opened edits →
    (∃ key entry, m.entries.get? key = some entry ∧ entry.id = id) ∨
      ∃ role, .madeEntry id role ∈ deeds ∧ .deletedRole role ∈ deeds

/-- An open entry is accounted for later if it is there later or goes with its role till then. -/
theorem Accounted.gone_later (accounted : m.Accounted deeds) {deeds' : List Deed}
    (more : deeds ⊆ deeds') {id : EntryId} {edits : Nat} (open_ : m.told id = opened edits)
    (stays : ∀ key entry, m.entries.get? key = some entry → entry.id = id →
      m'.entries.get? key = some entry ∨ .deletedRole entry.role ∈ deeds') :
    (∃ key entry, m'.entries.get? key = some entry ∧ entry.id = id) ∨
      ∃ role, .madeEntry id role ∈ deeds' ∧ .deletedRole role ∈ deeds' := by
  rcases accounted.gone id edits open_ with ⟨key, entry, found, same⟩ | ⟨role, made, deleted⟩
  · rcases stays key entry found same with stays | deleted
    · exact .inl ⟨key, entry, stays, same⟩
    · have made := accounted.stored key entry found
      rw [same] at made
      exact .inr ⟨entry.role, more made, deleted⟩
  · exact .inr ⟨role, more made, more deleted⟩

/-- Where one entry is written and the others are as they were, these are accounted for. -/
theorem Accounted.gone_apart (accounted : m.Accounted deeds) {key : EntryKey} {entry : Entry}
    (found : m.entries.get? key = some entry)
    (elsewhere : ∀ key', key' ≠ key → m'.entries.get? key' = m.entries.get? key') {id : EntryId}
    (apart : id ≠ entry.id) {edits : Nat} (open_ : m.told id = opened edits) :
    (∃ key entry, m'.entries.get? key = some entry ∧ entry.id = id) ∨
      ∃ role, .madeEntry id role ∈ deeds ∧ .deletedRole role ∈ deeds := by
  refine accounted.gone_later (List.Subset.refl _) open_ fun key' other found' own => .inl ?_
  have differs : key' ≠ key := by
    rintro rfl
    cases found.symm.trans found'
    exact apart own.symm
  rw [elsewhere key' differs, found']

theorem Accounted.keep (accounted : m.Accounted deeds)
    (unmade : ∀ id role, deed? ≠ some (.madeEntry id role))
    (fewer : ∀ key entry, m'.entries.get? key = some entry → m.entries.get? key = some entry)
    (gone : ∀ key entry, m.entries.get? key = some entry →
      m'.entries.get? key = some entry ∨ deed? = some (.deletedRole entry.role))
    (told : m'.told = m.told) : m'.Accounted (deeds ++ deed?.toList) := by
  have before : ∀ {id role}, .madeEntry id role ∈ deeds ++ deed?.toList →
      .madeEntry id role ∈ deeds := by
    intro id role mem
    rcases List.mem_append.mp mem with mem | now
    · exact mem
    · exact absurd (Option.mem_toList.mp now) (unmade id role)
  refine ⟨fun key entry found => ?_, fun id role role' first second => ?_, fun id role mem => ?_,
    fun id edits open_ => ?_⟩
  · exact List.mem_append_left _ (accounted.stored key entry (fewer key entry found))
  · exact accounted.once id role role' (before first) (before second)
  · rw [told]
    exact accounted.told id role (before mem)
  · rw [told] at open_
    refine accounted.gone_later (List.subset_append_left _ _) open_ fun key entry found _ => ?_
    refine (gone key entry found).imp_right fun deleted => List.mem_append_right _ ?_
    exact Option.mem_toList.mpr deleted

theorem Accounted.make (accounted : m.Accounted deeds) {key : EntryKey} {entry : Entry}
    (absent : m.entries.get? key = none) (untold : m.told entry.id = [])
    (entries : m'.entries = m.entries.insert key entry)
    (tells : m.Tells m' entry.id .entryCreated) :
    m'.Accounted (deeds ++ [.madeEntry entry.id entry.role]) := by
  have now : ∀ {id role}, .madeEntry id role ∈ deeds ++ [.madeEntry entry.id entry.role] →
      .madeEntry id role ∈ deeds ∨ (id = entry.id ∧ role = entry.role) := by
    intro id role mem
    rcases List.mem_append.mp mem with mem | mem
    · exact .inl mem
    · cases List.mem_singleton.mp mem
      exact .inr ⟨rfl, rfl⟩
  -- What was made is told of, and of this entry nothing is told yet.
  have new : ∀ role, .madeEntry entry.id role ∉ deeds := fun role mem =>
    accounted.told entry.id role mem untold
  refine ⟨?_, fun id role role' first second => ?_, fun id role mem => ?_, fun id edits open_ => ?_⟩
  · rw [entries]
    refine SortedMap.forall_insert (List.mem_append_right _ List.mem_cons_self) ?_
    exact fun key' entry' found _ => List.mem_append_left _ (accounted.stored key' entry' found)
  · rcases now first with before | ⟨rfl, rfl⟩ <;> rcases now second with before' | ⟨same, rfl⟩
    · exact accounted.once id role role' before before'
    · exact absurd (same ▸ before) (new role)
    · exact absurd before' (new role')
    · rfl
  · rcases now mem with before | ⟨rfl, rfl⟩
    · rw [tells id]
      exact List.append_ne_nil_of_left_ne_nil (accounted.told id role before) _
    · rw [tells.own]
      exact List.append_ne_nil_of_right_ne_nil _ (List.cons_ne_nil _ _)
  · by_cases here : id = entry.id
    · refine .inl ⟨key, entry, ?_, here.symm⟩
      rw [entries, SortedMap.get?_insert_self]
    · rw [tells.other here] at open_
      refine accounted.gone_later (List.subset_append_left _ _) open_ fun key' entry' found _ => .inl ?_
      have differs : key' ≠ key := by
        rintro rfl
        cases absent.symm.trans found
      rw [entries, SortedMap.get?_insert_of_ne _ differs, found]

theorem Accounted.edit (accounted : m.Accounted deeds) {key : EntryKey} {entry entry' : Entry}
    (found : m.entries.get? key = some entry)
    (same : entry'.id = entry.id ∧ entry'.role = entry.role)
    (entries : m'.entries = m.entries.insert key entry')
    (tells : m.Tells m' entry.id .entryEdited) : m'.Accounted deeds := by
  refine ⟨?_, accounted.once, fun id role mem => ?_, fun id edits open_ => ?_⟩
  · rw [entries]
    refine SortedMap.forall_insert ?_ fun key' other found' _ => accounted.stored key' other found'
    rw [same.1, same.2]
    exact accounted.stored key entry found
  · rw [tells id]
    exact List.append_ne_nil_of_left_ne_nil (accounted.told id role mem) _
  · by_cases here : id = entry.id
    · refine .inl ⟨key, entry', ?_, same.1.trans here.symm⟩
      rw [entries, SortedMap.get?_insert_self]
    · rw [tells.other here] at open_
      refine accounted.gone_apart found (fun key' differs => ?_) here open_
      rw [entries, SortedMap.get?_insert_of_ne _ differs]

theorem Accounted.empty (accounted : m.Accounted deeds) {key : EntryKey} {entry : Entry}
    (found : m.entries.get? key = some entry) (entries : m'.entries = m.entries.erase key)
    (tells : m.Tells m' entry.id .entryDeleted) : m'.Accounted deeds := by
  refine ⟨?_, accounted.once, fun id role mem => ?_, fun id edits open_ => ?_⟩
  · rw [entries]
    exact SortedMap.forall_erase accounted.stored
  · rw [tells id]
    exact List.append_ne_nil_of_left_ne_nil (accounted.told id role mem) _
  · have here : id ≠ entry.id := by
      rintro rfl
      rw [tells.own] at open_
      apply deleted_not_mem_opened edits
      rw [← open_]
      exact List.mem_append_right _ List.mem_cons_self
    rw [tells.other here] at open_
    refine accounted.gone_apart found (fun key' differs => ?_) here open_
    rw [entries, SortedMap.get?_erase_of_ne _ differs]

theorem Accounted.step (accounted : m.Accounted deeds) (chronicled : m.Chronicled)
    (written : EntriesWritten m m' deed?) : m'.Accounted (deeds ++ deed?.toList) := by
  cases written with
  | kept unmade fewer gone _ told => exact accounted.keep unmade fewer gone told
  | made absent numbered entries _ tells =>
    have untold := chronicled.unmade _ (Nat.lt_succ_self m.entriesMade)
    rw [← numbered] at untold
    exact accounted.make absent untold entries tells
  | edited found same entries _ tells =>
    rw [Option.toList_none, List.append_nil]
    exact accounted.edit found same entries tells
  | emptied found entries _ tells =>
    rw [Option.toList_none, List.append_nil]
    exact accounted.empty found entries tells

/-! ### What operations write -/

structure Written (m m' : Memory) (deed? : Option Deed) : Prop where
  roles : RolesWritten m m' deed?
  entries : EntriesWritten m m' deed?

theorem RolesWritten.of_fewer (fewer : ∀ id, m'.roles.get? id ≠ none → m.roles.get? id ≠ none)
    (undeleted : ∀ id, deed? ≠ some (.deletedRole id)) : RolesWritten m m' deed? where
  kept id present := .inl ⟨fewer id present, undeleted id⟩
  deleted id deleted := absurd deleted (undeleted id)

theorem EntriesWritten.of_same (unmade : ∀ id role, deed? ≠ some (.madeEntry id role))
    (entries : m'.entries = m.entries) (made : m'.entriesMade = m.entriesMade)
    (told : m'.told = m.told) : EntriesWritten m m' deed? := by
  refine .kept unmade (fun key entry found => ?_) (fun key entry found => .inl ?_) made told
  · rwa [entries] at found
  · rwa [entries]

theorem Written.of_same (roles : ∀ id, m'.roles.get? id ≠ none → m.roles.get? id ≠ none)
    (entries : m'.entries = m.entries) (made : m'.entriesMade = m.entriesMade)
    (told : m'.told = m.told) : m.Written m' none :=
  ⟨.of_fewer roles (by simp), .of_same (by simp) entries made told⟩

theorem Written.refl (m : Memory) : m.Written m none := .of_same (fun _ => id) rfl rfl rfl

end Memory

namespace Site

variable {site after : Site Memory} {actor : User} {operation : Operation} {id : RoleId}

theorem grant_written {m : Memory} {target : Object} {permission : Permission} {detail : String} :
    m.Written (((outcomeEvent? actor (m.addPermission target id permission).1 detail).elim
      (m.addPermission target id permission).2 (m.addPermission target id permission).2.record))
      (m.addPermission target id permission).1.deed? := by
  rcases Memory.addPermission_cases m target id permission with
    ⟨_, _, ran⟩ | ⟨entry, found, ran⟩ | ⟨absent, entry, new, ran⟩
  · rw [ran]
    exact .refl m
  · rw [ran]
    have same : (entry.add permission).id = entry.id ∧ (entry.add permission).role = entry.role :=
      ⟨rfl, rfl⟩
    refine ⟨.of_fewer (fun _ present => present) nofun, ?_⟩
    exact .edited found same rfl rfl (Memory.record_tells rfl)
  · rw [ran]
    have numbered : entry.id = .numbered (m.entriesMade + 1) := by rw [new]
    refine ⟨.of_fewer (fun _ present => present) nofun, ?_⟩
    exact .made absent numbered rfl rfl (Memory.record_tells rfl)

theorem revoke_written {m : Memory} {target : Object} {permission : Permission} {detail : String}
    {event : AuditEvent}
    (told : outcomeEvent? actor (m.removePermission target id permission).1 detail = some event) :
    m.Written ((m.removePermission target id permission).2.record event) none := by
  rcases Memory.removePermission_cases m target id permission with
    ⟨_, ran⟩ | ⟨entry, found, ran⟩ | ⟨entry, found, ran⟩
  · rw [ran] at told
    cases told
  · rw [ran] at told ⊢
    cases told
    have same : (entry.remove permission).id = entry.id ∧
      (entry.remove permission).role = entry.role := ⟨rfl, rfl⟩
    refine ⟨.of_fewer (fun _ present => present) nofun, ?_⟩
    exact .edited found same rfl rfl (Memory.record_tells rfl)
  · rw [ran] at told ⊢
    cases told
    refine ⟨.of_fewer (fun _ present => present) nofun, ?_⟩
    exact .emptied found rfl rfl (Memory.record_tells rfl)

theorem Effects.written {changes : List Change} {m : Memory}
    (effects : site.Effects actor operation changes)
    (silent : ∀ answer, operation.deed? answer = none)
    (served : Change.serveAll site.store changes = .ok m) : site.store.Written m none := by
  cases effects with
  -- These three have deeds.
  | createRole => cases silent (.ok (.created (.bare default "")))
  | deleteRole => cases silent (.ok .done)
  | grant => cases silent (.ok (.outcome ⟨.created, some ⟨.numbered 0, roleObject default, default, ∅⟩⟩))
  | @editRole _ id _ _ _ _ _ =>
    obtain ⟨next, served, recorded⟩ := Change.serveAll_cons_ok.mp served
    obtain ⟨⟨_, _⟩, edited, rfl⟩ := map_ok served
    obtain ⟨role, normal, stored, _, _, rfl⟩ := Memory.editRole_ok edited
    cases recorded
    refine .of_same (fun other present absent => present ?_) rfl rfl (Memory.record_told rfl)
    have differs : other ≠ id := by
      rintro rfl
      cases stored.symm.trans absent
    exact (SortedMap.get?_insert_of_ne _ differs _).trans absent
  | addMember | removeMember =>
    cases served
    exact .of_same (fun _ present => present) rfl rfl (Memory.record_told rfl)
  | revoke _ told =>
    cases served
    exact revoke_written told
  | setRelation =>
    obtain ⟨next, served, rest⟩ := Change.serveAll_cons_ok.mp served
    cases rest
    rw [Memory.setRelation_ok served]
    exact .of_same (fun _ present => present) rfl rfl (Memory.told_congr rfl)
  | clearRelation =>
    cases served
    exact .of_same (fun _ present => present) rfl rfl (Memory.told_congr rfl)

theorem newRoleId_store {given : Option RoleId} {new : RoleId}
    (named : newRoleId given site = (.ok new, after)) : after.store = site.store := by
  cases given with
  | none | some =>
    cases named
    rfl

theorem createRole_written {label : String} {given : Option RoleId} {role : Role}
    (ran : createRole actor label given site = (.ok role, after)) :
    site.store.Written after.store (some (.createdRole role.id)) := by
  unfold createRole at ran
  obtain ⟨_, _, looked, ran⟩ := Attempt.bind_eq_ok.mp ran
  obtain ⟨_, rfl⟩ := Attempt.look_ok looked
  obtain ⟨name, _, looked, ran⟩ := Attempt.bind_eq_ok.mp ran
  obtain ⟨_, rfl⟩ := Attempt.look_ok looked
  obtain ⟨new, between, named, ran⟩ := Attempt.bind_eq_ok.mp ran
  obtain ⟨_, _, stored, ran⟩ := Attempt.bind_eq_ok.mp ran
  rcases put_run (fun store => Store.createRole store (.bare new name)) with
    ⟨failure, refused⟩ | ⟨m, served, done⟩
  · cases refused.symm.trans stored
  · cases done.symm.trans stored
    obtain ⟨_, rfl⟩ := Memory.createRole_ok_iff.mp served
    cases ran
    rw [newRoleId_store named]
    refine ⟨⟨fun id present => ?_, nofun⟩, .of_same nofun rfl rfl (Memory.record_told rfl)⟩
    by_cases here : id = new
    · rw [here]
      exact .inr rfl
    · refine .inl ⟨fun absent => present ?_, nofun⟩
      exact (SortedMap.get?_insert_of_ne _ here _).trans absent

theorem deleteRole_written (keyed : site.store.Keyed)
    (ran : deleteRole actor id site = (.ok (), after)) :
    site.store.Written after.store (some (.deletedRole id)) := by
  obtain ⟨role, found, rfl⟩ := deleteRole_ok ran
  refine ⟨⟨fun other present => .inl ?_, fun other same => ?_⟩,
    .kept nofun (fun key entry stays => (site.store.entriesWithout_eq_some.mp stays).1)
      (fun key entry stored => ?_) rfl (Memory.record_told rfl)⟩
  · have differs : other ≠ id := by
      rintro rfl
      exact present (SortedMap.get?_erase_self ..)
    refine ⟨fun absent => present ((SortedMap.get?_erase_of_ne _ differs).trans absent), ?_⟩
    exact fun same => differs (Deed.deletedRole.inj (Option.some.inj same)).symm
  · cases same
    rw [found]
    nofun
  · by_cases own : key.role = id
    · rw [(keyed.entries key entry stored).2, own]
      exact .inr rfl
    · exact .inl (site.store.entriesWithout_eq_some.mpr ⟨stored, own⟩)

theorem recordOutcome_ok {outcome : Outcome} {detail : String}
    (ran : recordOutcome actor outcome detail site = (.ok (), after)) :
    after.store = (outcomeEvent? actor outcome detail).elim site.store site.store.record := by
  unfold recordOutcome at ran
  cases told : outcomeEvent? actor outcome detail with
  | none | some =>
    rw [told] at ran
    cases ran
    rfl

theorem grantFor_written {target : Object} {permission : Permission} {outcome : Outcome}
    (ran : grantFor actor target permission id site = (.ok outcome, after)) :
    site.store.Written after.store outcome.deed? := by
  unfold grantFor at ran
  obtain ⟨_, _, looked, ran⟩ := Attempt.bind_eq_ok.mp ran
  obtain ⟨_, rfl⟩ := Attempt.look_ok looked
  obtain ⟨_, _, granted, ran⟩ := Attempt.bind_eq_ok.mp ran
  rcases grant_run site target permission id with ⟨failure, failed⟩ | ⟨role, _, _, done⟩
  · cases failed.symm.trans granted
  · cases done.symm.trans granted
    obtain ⟨_, _, recorded, ended⟩ := Attempt.bind_eq_ok.mp ran
    cases ended
    rw [recordOutcome_ok recorded]
    exact grant_written

theorem perform_written (keyed : site.store.Keyed) (actor : User) (operation : Operation) :
    site.store.Written (perform actor operation site).2.store
      (operation.deed? (perform actor operation site).1) := by
  have settles : Settles (perform actor operation) site _ := perform_settles actor operation
  rcases settles with ⟨failure, after, failed, idle⟩ | ⟨answer, after, ran, did⟩
  · have silent : operation.deed? (.error failure) = none := by cases operation <;> rfl
    rw [failed, silent, idle.store]
    exact .refl _
  · rw [ran]
    have quiet (silent : ∀ answer, operation.deed? answer = none) :
        site.store.Written after.store (operation.deed? (.ok answer)) := by
      rw [silent]
      rcases did with idle | ⟨changes, m, drawn, effects, served, same⟩
      · rw [idle.store]
        exact .refl _
      · rw [same]
        exact effects.written silent served
    cases operation with
    | createRole label given =>
      obtain ⟨role, _, created, done⟩ := Attempt.bind_eq_ok.mp ran
      cases done
      exact createRole_written created
    | deleteRole id =>
      obtain ⟨_, _, deleted, done⟩ := Attempt.bind_eq_ok.mp ran
      cases done
      exact deleteRole_written keyed deleted
    | grant target permission id =>
      obtain ⟨outcome, _, granted, done⟩ := Attempt.bind_eq_ok.mp ran
      cases done
      exact grantFor_written granted
    | _ => exact quiet fun _ => rfl

end Site

/-! ### Runs -/

/-- The trail, the roles and the entries are what has been done. -/
structure Memory.Tracked (m : Memory) (deeds : List Deed) : Prop where
  chronicled : m.Chronicled
  housed : m.Housed deeds
  accounted : m.Accounted deeds

theorem Memory.empty_tracked : (∅ : Memory).Tracked [] where
  chronicled := empty_chronicled
  housed := ⟨fun _ present => absurd rfl present, fun _ mem => absurd mem List.not_mem_nil⟩
  accounted := by
    refine ⟨fun _ _ found => ?_, fun _ _ _ mem => ?_, fun _ _ mem => ?_, fun _ _ open_ => ?_⟩
    · cases found
    · cases mem
    · cases mem
    · cases open_

theorem Memory.Tracked.step {m m' : Memory} {deeds : List Deed} {deed? : Option Deed}
    (tracked : m.Tracked deeds) (written : m.Written m' deed?)
    (fresh : ∀ id, deed? = some (.createdRole id) → .createdRole id ∉ deeds) :
    m'.Tracked (deeds ++ deed?.toList) where
  chronicled := tracked.chronicled.step written.entries
  housed := tracked.housed.step written.roles fresh
  accounted := tracked.accounted.step tracked.chronicled written.entries

theorem Deed.fresh_of_nodup {past rest : List Deed} {deed? : Option Deed}
    (fresh : (createdRoles (past ++ (deed?.toList ++ rest))).Nodup) :
    ∀ id, deed? = some (.createdRole id) → .createdRole id ∉ past := by
  rintro id rfl mem
  rw [createdRoles, List.filterMap_append] at fresh
  have here : id ∈ createdRoles ((some (createdRole id)).toList ++ rest) :=
    mem_createdRoles.mpr List.mem_cons_self
  exact (List.nodup_append.mp fresh).2.2 id (mem_createdRoles.mpr mem) id here rfl

namespace Site

variable {site : Site Memory}

/-- The deeds of some operations, oldest first. -/
def deeds (site : Site Memory) : List (User × Operation) → List Deed
  | [] => []
  | (actor, operation) :: rest =>
    (operation.deed? (perform actor operation site).1).toList ++
      (perform actor operation site).2.deeds rest

theorem after_tracked {past : List Deed} (sound : site.store.Sound site.registry)
    (tracked : site.store.Tracked past) (operations : List (User × Operation))
    (fresh : (Deed.createdRoles (past ++ site.deeds operations)).Nodup) :
    (site.after operations).store.Tracked (past ++ site.deeds operations) ∧
      (site.after operations).store.Sound site.registry := by
  induction operations generalizing site past with
  | nil =>
    rw [deeds, List.append_nil]
    exact ⟨tracked, sound⟩
  | cons first rest ih =>
    obtain ⟨actor, operation⟩ := first
    obtain ⟨sound', registry⟩ := afterCall_sound sound (.perform actor operation)
    have written := perform_written sound.keyed actor operation
    rw [deeds] at fresh ⊢
    have tracked' := tracked.step written (Deed.fresh_of_nodup fresh)
    rw [← List.append_assoc] at fresh ⊢
    rw [← registry] at sound' ⊢
    exact ih sound' tracked' fresh

/-- From an empty store on, if no role is created twice under one identifier: of every entry the trail
tells a life; and stored are, each once, the entries whose making it tells of and whose deletion it does
not, unless their roles have been deleted. -/
theorem trail_tells_lives (empty : site.store = ∅) (operations : List (User × Operation))
    (fresh : (Deed.createdRoles (site.deeds operations)).Nodup) :
    let m := (site.after operations).store
    (∀ id, Lived (m.told id)) ∧
      (∀ entry ∈ m.entries.values, ∀ entry' ∈ m.entries.values, entry.id = entry'.id →
        entry = entry') ∧
      ∀ id, (∃ entry ∈ m.entries.values, entry.id = id) ↔
        AuditAction.entryCreated.toText ∈ m.told id ∧ AuditAction.entryDeleted.toText ∉ m.told id ∧
          ¬ ∃ role, .madeEntry id role ∈ site.deeds operations ∧
            .deletedRole role ∈ site.deeds operations := by
  intro m
  have start : site.store.Tracked [] := empty ▸ Memory.empty_tracked
  have sound₀ : site.store.Sound site.registry := empty ▸ Memory.empty_sound site.registry
  obtain ⟨⟨chronicled, housed, accounted⟩, sound⟩ := after_tracked sound₀ start operations fresh
  rw [List.nil_append] at housed accounted
  refine ⟨chronicled.lived, fun entry mem entry' mem' same => ?_, fun id => ?_⟩
  · obtain ⟨key, found⟩ := SortedMap.mem_values_iff.mp mem
    obtain ⟨key', found'⟩ := SortedMap.mem_values_iff.mp mem'
    cases chronicled.apart key key' entry entry' found found' same
    exact Option.some.inj (found.symm.trans found')
  · rw [← and_assoc, (chronicled.lived id).open_iff]
    constructor
    · rintro ⟨entry, mem, rfl⟩
      obtain ⟨key, found⟩ := SortedMap.mem_values_iff.mp mem
      refine ⟨chronicled.stored key entry found, ?_⟩
      rintro ⟨role, made, deleted⟩
      -- The entry was made for the role that it is of, and that is still stored.
      cases accounted.once entry.id role entry.role made (accounted.stored key entry found)
      obtain ⟨stored, held⟩ := (sound.entries key entry found).role
      exact (housed.stored entry.role (by rw [held]; nofun)).2 deleted
    · rintro ⟨⟨edits, open_⟩, kept⟩
      obtain ⟨key, entry, found, same⟩ := (accounted.gone id edits open_).resolve_right kept
      exact ⟨entry, SortedMap.mem_values_iff.mpr ⟨key, found⟩, same⟩

end Site

namespace Sample

def amend : Permission := ⟨"desk", "amend", by decide, by decide⟩

/-- A desk on which documents may be viewed and amended. -/
def desk : Site Memory where
  registry := { applicable := .ofList [(document, .ofList [view, amend])] }
  store := ∅

def clerk : RoleId := Uuid.drawn 1

def helper : RoleId := Uuid.drawn 2

/-- The first entry of the clerk comes and goes, the second stays; that of the helper goes with the role. -/
def clerking : List (User × Operation) :=
  [.createRole "clerk" none, .grant ⟨document, "d"⟩ view clerk, .grant ⟨document, "d"⟩ amend clerk,
    .revoke ⟨document, "d"⟩ view clerk, .revoke ⟨document, "d"⟩ amend clerk,
    .grant ⟨document, "d"⟩ view clerk, .createRole "helper" none,
    .grant ⟨document, "d"⟩ view helper, .deleteRole helper].map (root, ·)

end Sample

open Sample in
theorem Site.trail_tells_lives_at_desk :
    (Deed.createdRoles (desk.deeds clerking)).Nodup ∧
      Lived ((desk.after clerking).store.told (.numbered 1)) ∧
      (∃ entry ∈ (desk.after clerking).store.entries.values, entry.id = .numbered 2) ∧
      ¬ ∃ entry ∈ (desk.after clerking).store.entries.values, entry.id = .numbered 3 := by
  have fresh : (Deed.createdRoles (desk.deeds clerking)).Nodup := by decide +kernel
  have done : desk.deeds clerking = [.createdRole clerk, .madeEntry (.numbered 1) clerk,
      .madeEntry (.numbered 2) clerk, .createdRole helper, .madeEntry (.numbered 3) helper,
      .deletedRole helper] := by
    decide +kernel
  obtain ⟨lived, _, stored⟩ := trail_tells_lives (show desk.store = ∅ from rfl) clerking fresh
  refine ⟨fresh, lived _, (stored _).mpr ⟨by decide +kernel, by decide +kernel, ?_⟩, fun there => ?_⟩
  · rw [done]
    rintro ⟨role, made, deleted⟩
    have gone : role = helper := by simpa using deleted
    rw [gone] at made
    exact absurd made (by decide)
  · exact ((stored _).mp there).2.2 ⟨helper, by decide +kernel, by decide +kernel⟩

end Entitlement
