import Entitlement.Proofs.Administration.Integrity
import Entitlement.Proofs.Store.Labels

/-!
# Deleting a role

A role is deleted in two requests to the store, both of which delete its entries. Together they delete
the role and its entries, and nothing else (`Site.deleteRole_removes_alone`).
-/

namespace Entitlement

namespace Memory

variable {m : Memory}

/-- The entries of a role. -/
def entriesOf (m : Memory) (id : RoleId) : List Entry := m.entries.values.filter (·.role == id)

/-- What deleting a role leaves: everything but the role and its entries, and its label is free. -/
structure Without (before : Memory) (role : Role) (after : Memory) : Prop where
  gone : after.roles.get? role.id = none
  unheld : after.entriesOf role.id = []
  unresolved : ∀ subject, ∀ other ∈ after.rolesOf subject, other.id ≠ role.id
  free : ∀ fresh : Role, fresh.label = role.label → ∃ m, after.createRole fresh = .ok m
  roles : ∀ other, other ≠ role.id → after.roles.get? other = before.roles.get? other
  entries : ∀ key, key.role ≠ role.id → after.entries.get? key = before.entries.get? key
  members : after.members = before.members
  relations : after.relations = before.relations

/-- The count is of entries, though they are picked by what they are stored under. -/
theorem Keyed.deleteEntriesOf_count (keyed : m.Keyed) (id : RoleId) :
    (m.deleteEntriesOf id).1 = (m.entriesOf id).length := by
  have picked : (m.entries.filter fun key _ => key.role == id).values = m.entriesOf id := by
    refine SortedMap.values_filter (fun entry : Entry => entry.role == id) fun key entry found => ?_
    rw [(keyed.entries key entry found).2]
  calc (m.deleteEntriesOf id).1
      = (m.entries.filter fun key _ => key.role == id).values.length := (List.length_map _).symm
    _ = (m.entriesOf id).length := congrArg List.length picked

theorem without_of_delete (keyed : m.Keyed) (labelled : m.Labelled) {role : Role}
    (found : m.roles.get? role.id = some role) (event : AuditEvent) :
    m.Without role ((m.deleteRole role.id).record event) where
  gone := SortedMap.get?_erase_self _ _
  unheld := by
    refine List.filter_eq_nil_iff.mpr fun entry mem same => ?_
    obtain ⟨key, there⟩ := SortedMap.mem_values_iff.mp mem
    obtain ⟨before, differs⟩ := m.entriesWithout_eq_some.mp there
    rw [← (keyed.entries key entry before).2] at differs
    exact differs (beq_iff_eq.mp same)
  unresolved := by
    intro subject other held
    have there := (deleteRole_keyed keyed role.id).mem_roles_iff.mp (mem_rolesOf.mp held).1
    exact (m.deleteRole_eq_some.mp there).2
  free := by
    intro fresh same
    refine ⟨_, createRole_ok_iff.mpr ⟨fun id stored there taken => ?_, rfl⟩⟩
    obtain ⟨before, differs⟩ := m.deleteRole_eq_some.mp there
    exact differs (labelled id role.id stored role before found (taken.trans same))
  roles _ differs := SortedMap.get?_erase_of_ne _ differs
  entries key differs := Option.ext fun entry =>
    m.entriesWithout_eq_some.trans (and_iff_left differs)
  members := rfl
  relations := rfl

end Memory

namespace Site

variable {site after : Site Memory} {actor creator : User} {id : RoleId}

/-- A role may be created under a label that no stored role has. -/
theorem createRole_free {label name : String}
    (allowed : site.requireEverywhere creator createRoles = .ok ())
    (read : filledText label = .ok name)
    (free : ∀ fresh : Role, fresh.label = name → ∃ m, site.store.createRole fresh = .ok m)
    (given : Option RoleId) :
    ∃ made next, createRole creator label given site = (.ok made, next) ∧ made.label = name := by
  obtain ⟨drawn, named⟩ := newRoleId_run site given
  let role := Role.bare (given.getD (Uuid.drawn (site.rolesDrawn + 1))) name
  obtain ⟨m, served⟩ := free role rfl
  have opened : Attempt.look (fun site : Site Memory => site.requireEverywhere creator createRoles) site =
      (.ok (), site) := by
    rw [Attempt.look_apply, allowed]
  have labelled : Attempt.given (refused (filledText label)) site = (.ok name, site) := by
    rw [read]
    rfl
  have stored : put (fun store => Store.createRole store role) { site with rolesDrawn := drawn } =
      (.ok (), { site with store := m, rolesDrawn := drawn }) := put_of_ok served
  -- Once the role is stored, only the event is left to record, which nothing refuses.
  exact ⟨role, _, Attempt.bind_eq_ok.mpr ⟨(), site, opened, Attempt.bind_eq_ok.mpr ⟨name, site, labelled,
    Attempt.bind_eq_ok.mpr ⟨_, _, named, Attempt.bind_eq_ok.mpr ⟨(), _, stored, rfl⟩⟩⟩⟩, rfl⟩

/-- Deleting a role deletes the role and its entries and nothing else, and leaves one event, which tells
how many entries there were. Its label may then be given to a new role. -/
theorem deleteRole_removes_alone (changes : List Change) (site after : Site Memory) (actor : User)
    (id : RoleId) (reached : site.store = Change.run ∅ changes)
    (ran : deleteRole actor id site = (.ok (), after)) :
    ∃ role, site.store.roles.get? id = some role ∧ role.id = id ∧
      site.store.Without role after.store ∧ after = { site with store := after.store } ∧
      after.store.events =
        (deletedEvent actor role (site.store.entriesOf id).length).toEntry :: site.store.events ∧
      ∀ creator label given, after.requireEverywhere creator createRoles = .ok () →
        filledText label = .ok role.label →
        ∃ made next, createRole creator label given after = (.ok made, next) ∧
          made.label = role.label := by
  have keyed : site.store.Keyed := reached ▸ Memory.run_keyed Memory.empty_keyed changes
  have labelled : site.store.Labelled := reached ▸ Memory.run_labelled Memory.empty_labelled changes
  obtain ⟨role, found, rfl⟩ := deleteRole_ok ran
  obtain rfl := keyed.roles id role found
  rw [keyed.deleteEntriesOf_count]
  have without := Memory.without_of_delete keyed labelled found
    (deletedEvent actor role (site.store.entriesOf role.id).length)
  refine ⟨role, found, rfl, without, rfl, rfl, fun creator label given allowed read => ?_⟩
  exact createRole_free allowed read without.free given

open Sample in
theorem deleteRole_removes_alone_in_library :
    ∃ after, deleteRole root reader library = (.ok (), after) ∧
      library.store.Without ⟨reader, "reader", ∅, .ofList ["staff"]⟩ after.store ∧
      after.store.events.map (·.detail) = [some "deleted role 'reader' and 1 object entries"] ∧
      ∃ made next, createRole root "reader " none after = (.ok made, next) ∧ made.label = "reader" := by
  let ran := deleteRole root reader library
  have done : ran = (.ok (), ran.2) := Prod.ext (by decide +kernel) rfl
  have stored : library.store.roles.get? reader = some ⟨reader, "reader", ∅, .ofList ["staff"]⟩ := by
    decide +kernel
  obtain ⟨role, found, _, without, _, told, reusable⟩ :=
    deleteRole_removes_alone filing library ran.2 root reader rfl done
  obtain rfl := Option.some.inj (stored.symm.trans found)
  refine ⟨ran.2, done, without, ?_, reusable root "reader " none (by decide +kernel) (by decide +kernel)⟩
  rw [told]
  decide +kernel

end Site

end Entitlement
