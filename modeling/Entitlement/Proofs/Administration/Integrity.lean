import Entitlement.Proofs.Administration.Authority
import Entitlement.Proofs.Administration.Calls
import Entitlement.Proofs.Store.Tables

/-!
# What the stored data can be relied on for

`Memory.Sound` says that stored data refer to stored roles, to what the registry declares and to models
that it knows, and that names are written as they should be. Only changes of a certain form keep it
(`Change.Admissible`); operations ask for no others, so it holds after all calls on a site whose
store was empty (`Site.sound_from_empty`).
-/

namespace Entitlement

/-- Neither blank, nor with white space around it. -/
def Text.Filled (s : String) : Prop := allBlank s = false ∧ trim s = s

namespace Text

theorem filled_trim {s : String} (filled : allBlank s = false) : Filled (trim s) :=
  ⟨(allBlank_trim s).trans filled, trim_trim s⟩

theorem filledText_ok {s name : String} (read : filledText s = .ok name) :
    allBlank s = false ∧ name = trim s := by
  obtain ⟨filled, rfl⟩ := ite_allBlank_ok_iff.mp read
  exact ⟨filled, rfl⟩

theorem filledText_filled {s name : String} (read : filledText s = .ok name) : Filled name := by
  obtain ⟨filled, rfl⟩ := filledText_ok read
  exact filled_trim filled

theorem membership_filled {group subject group' subject' : String}
    (read : Site.membership group subject = .ok (group', subject')) :
    Filled group' ∧ Filled subject' := by
  obtain ⟨⟨named, called⟩, rfl, rfl⟩ := Site.membership_ok read
  exact ⟨filled_trim named, filled_trim called⟩

end Text

open Text (Filled)

/-- The names of a role are written as they should be, and its permissions are declared. -/
structure Role.Sound (registry : Registry) (role : Role) : Prop where
  label : Filled role.label
  groups : ∀ group ∈ role.groups, Filled group
  declared : ∀ permission ∈ role.permissions, ∃ declared, registry.validate permission = .ok declared

theorem Role.bare_sound {registry : Registry} {id : RoleId} {label : String} (filled : Filled label) :
    (Role.bare id label).Sound registry where
  label := filled
  groups group mem := absurd mem (SortedSet.not_mem_empty group)
  declared permission mem := absurd mem (SortedSet.not_mem_empty permission)

namespace Memory

/-- The entry is one of a stored role, and its permissions mean something for its object. -/
structure Bears (registry : Registry) (m : Memory) (entry : Entry) : Prop where
  role : ∃ role, m.roles.get? entry.role = some role
  applies : ∀ permission ∈ entry.permissions, registry.applies entry.target.model permission = true

structure Sound (registry : Registry) (m : Memory) : Prop where
  keyed : m.Keyed
  roles : ∀ id role, m.roles.get? id = some role → role.Sound registry
  /-- Different roles have different labels. -/
  labels : ∀ id id' role role', m.roles.get? id = some role → m.roles.get? id' = some role' →
    role.label = role'.label → id = id'
  entries : ∀ key entry, m.entries.get? key = some entry → m.Bears registry entry
  /-- No group is stored without members. -/
  members : ∀ group subjects, m.members.get? group = some subjects →
    Filled group ∧ (∃ subject, subject ∈ subjects) ∧ ∀ subject ∈ subjects, Filled subject
  relations : ∀ key parent, m.relations.get? key = some parent →
    registry.isRegistered key.child.model = true ∧ registry.isRegistered parent.model = true

end Memory

/-- What keeps a store sound is asked for with this made sure of. -/
def Change.Admissible (registry : Registry) (m : Memory) : Change → Prop
  | .createRole role => role.Sound registry
  | .editRole _ (.grant permission) => ∃ declared, registry.validate permission = .ok declared
  | .addMember group subject => Filled group ∧ Filled subject
  | .addPermission target role permission =>
    (∃ stored, m.roles.get? role = some stored) ∧
      registry.applies target.model permission = true
  | .setRelation child _ parent =>
    registry.isRegistered child.model = true ∧ registry.isRegistered parent.model = true
  | _ => True

namespace Memory

variable {registry : Registry} {m m' : Memory}

theorem empty_sound (registry : Registry) : Sound registry ∅ where
  keyed := empty_keyed
  roles := by
    intro id role found
    cases found
  labels := by
    intro id id' role role' found
    cases found
  entries := by
    intro key entry found
    cases found
  members := by
    intro group subjects found
    cases found
  relations := by
    intro key parent found
    cases found

/-! ### Roles -/

/-- A role may be put in place of the one under its identifier if no other role has its label. -/
theorem Sound.insert_role (sound : m.Sound registry) {role : Role} (fits : role.Sound registry)
    (free : ∀ id stored, m.roles.get? id = some stored → stored.label = role.label → id = role.id) :
    Sound registry { m with roles := m.roles.insert role.id role } where
  keyed := ⟨sound.keyed.insert_role role, sound.keyed.entries⟩
  roles := by
    intro id stored found
    rw [SortedMap.get?_insert] at found
    split at found
    · cases found
      exact fits
    · exact sound.roles id stored found
  labels := SortedMap.Apart.insert sound.labels free
  entries := by
    intro key entry found
    have bears := sound.entries key entry found
    exact ⟨SortedMap.exists_get?_insert bears.role _ _, bears.applies⟩
  members := sound.members
  relations := sound.relations

theorem createRole_sound (sound : m.Sound registry) {role : Role} (fits : role.Sound registry)
    (served : m.createRole role = .ok m') : m'.Sound registry := by
  obtain ⟨free, rfl⟩ := createRole_ok_iff.mp served
  refine sound.insert_role fits fun id stored found same => ?_
  exact absurd same (free id stored found)

theorem edit_sound {role : Role} (fits : role.Sound registry) {id : RoleId} {edit normal : RoleEdit}
    (admissible : (Change.editRole id edit).Admissible registry m)
    (read : edit.normal = .ok normal) : (role.edit normal).Sound registry := by
  cases edit with
  | grant permission =>
    cases read
    refine ⟨fits.label, fits.groups, fun other mem => ?_⟩
    rcases SortedSet.mem_insert.mp mem with rfl | mem
    · exact admissible
    · exact fits.declared other mem
  | revoke permission =>
    cases read
    exact ⟨fits.label, fits.groups, fun other mem => fits.declared other (SortedSet.mem_erase.mp mem).2⟩
  | attach group =>
    obtain ⟨name, named, rfl⟩ := map_ok read
    refine ⟨fits.label, fun other mem => ?_, fits.declared⟩
    rcases SortedSet.mem_insert.mp mem with rfl | mem
    · exact Text.filledText_filled named
    · exact fits.groups other mem
  | detach group =>
    cases read
    exact ⟨fits.label, fun other mem => fits.groups other (SortedSet.mem_erase.mp mem).2, fits.declared⟩

theorem editRole_sound (sound : m.Sound registry) {id : RoleId} {edit : RoleEdit} {changed : Bool}
    (admissible : (Change.editRole id edit).Admissible registry m)
    (served : m.editRole id edit = .ok (changed, m')) : m'.Sound registry := by
  obtain ⟨role, normal, found, read, _, rfl⟩ := editRole_ok served
  have own : (role.edit normal).id = id := (edit_id role normal).trans (sound.keyed.roles id role found)
  have fits := edit_sound (sound.roles id role found) admissible read
  -- An edit keeps the label, so the only role with it is the one that is edited.
  have free : ∀ other stored, m.roles.get? other = some stored →
      stored.label = (role.edit normal).label → other = (role.edit normal).id := by
    intro other stored found' same
    rw [edit_label] at same
    exact (sound.labels other id stored role found' found same).trans own.symm
  have inserted := sound.insert_role fits free
  rw [own] at inserted
  exact inserted

/-! ### Entries -/

theorem Sound.without (sound : m.Sound registry) {id : RoleId} {key : EntryKey} {entry : Entry}
    (found : (m.entriesWithout id).get? key = some entry) :
    m.Bears registry entry ∧ entry.role ≠ id := by
  rw [entriesWithout, SortedMap.get?_filter, Option.filter_eq_some_iff, decide_eq_true_iff] at found
  refine ⟨sound.entries key entry found.1, ?_⟩
  rw [(sound.keyed.entries key entry found.1).2]
  exact found.2

theorem deleteEntriesOf_sound (sound : m.Sound registry) (id : RoleId) :
    (m.deleteEntriesOf id).2.Sound registry where
  keyed := ⟨sound.keyed.roles, sound.keyed.entriesWithout id⟩
  roles := sound.roles
  labels := sound.labels
  entries := by
    intro key entry found
    obtain ⟨bears, _⟩ := sound.without found
    exact ⟨bears.role, bears.applies⟩
  members := sound.members
  relations := sound.relations

theorem deleteRole_sound (sound : m.Sound registry) (id : RoleId) : (m.deleteRole id).Sound registry := by
  refine ⟨deleteRole_keyed sound.keyed id, ?_, ?_, ?_, sound.members, sound.relations⟩
  · intro other role found
    exact sound.roles other role (m.deleteRole_eq_some.mp found).1
  · intro other other' role role' found found'
    exact sound.labels other other' role role' (m.deleteRole_eq_some.mp found).1
      (m.deleteRole_eq_some.mp found').1
  · intro key entry found
    obtain ⟨⟨⟨role, stored⟩, applies⟩, other⟩ := sound.without found
    exact ⟨⟨role, m.deleteRole_eq_some.mpr ⟨stored, other⟩⟩, applies⟩

theorem Sound.insert_entry (sound : m.Sound registry) {key : EntryKey} {entry : Entry}
    (own : entry.target = key.target ∧ entry.role = key.role) (bears : m.Bears registry entry)
    (made : Nat) :
    Sound registry { m with entries := m.entries.insert key entry, entriesMade := made } where
  keyed := ⟨sound.keyed.roles, sound.keyed.insert_entry own⟩
  roles := sound.roles
  labels := sound.labels
  entries := by
    intro other stored found
    rw [SortedMap.get?_insert] at found
    split at found
    · cases found
      exact ⟨bears.role, bears.applies⟩
    · have kept := sound.entries other stored found
      exact ⟨kept.role, kept.applies⟩
  members := sound.members
  relations := sound.relations

theorem Sound.erase_entry (sound : m.Sound registry) (gone : EntryKey) :
    Sound registry { m with entries := m.entries.erase gone } where
  keyed := ⟨sound.keyed.roles, sound.keyed.erase_entry gone⟩
  roles := sound.roles
  labels := sound.labels
  entries := by
    intro key entry found
    rw [SortedMap.get?_erase] at found
    split at found
    · cases found
    · have kept := sound.entries key entry found
      exact ⟨kept.role, kept.applies⟩
  members := sound.members
  relations := sound.relations

theorem addPermission_sound (sound : m.Sound registry) {target : Object} {role : RoleId}
    {permission : Permission}
    (admissible : (Change.addPermission target role permission).Admissible registry m) :
    (m.addPermission target role permission).2.Sound registry := by
  obtain ⟨stored, applies⟩ := admissible
  unfold addPermission
  split
  · rename_i entry found
    have own : entry.target = target ∧ entry.role = role := sound.keyed.entries _ _ found
    have bears := sound.entries _ _ found
    have added : m.Bears registry (entry.add permission) := by
      refine ⟨bears.role, fun other mem => ?_⟩
      rcases SortedSet.mem_insert.mp mem with rfl | mem
      · rw [← own.1] at applies
        exact applies
      · exact bears.applies other mem
    refine sound.insert_entry ?_ added _
    exact own
  · refine sound.insert_entry ⟨rfl, rfl⟩ ⟨stored, fun other mem => ?_⟩ _
    rcases SortedSet.mem_insert.mp mem with rfl | mem
    · exact applies
    · exact absurd mem (SortedSet.not_mem_empty other)

theorem removePermission_sound (sound : m.Sound registry) (target : Object) (role : RoleId)
    (permission : Permission) : (m.removePermission target role permission).2.Sound registry := by
  unfold removePermission
  split
  · exact sound
  · rename_i entry found
    have own := sound.keyed.entries _ _ found
    have bears := sound.entries _ _ found
    split
    · dsimp only
      split
      · exact sound.erase_entry _
      · have removed : m.Bears registry (entry.remove permission) :=
          ⟨bears.role, fun other mem => bears.applies other (SortedSet.mem_erase.mp mem).2⟩
        refine sound.insert_entry ?_ removed _
        exact own
    · exact sound

/-! ### Members and relations -/

theorem mem_group_iff {name subject : String} :
    subject ∈ m.group name ↔ ∃ subjects, m.members.get? name = some subjects ∧ subject ∈ subjects := by
  unfold group
  cases m.members.get? name with
  | none => simp [SortedSet.not_mem_empty]
  | some subjects => simp

theorem Sound.of_same (sound : m.Sound registry) (roles : m'.roles = m.roles)
    (entries : m'.entries = m.entries)
    (members : ∀ group subjects, m'.members.get? group = some subjects →
      Filled group ∧ (∃ subject, subject ∈ subjects) ∧ ∀ subject ∈ subjects, Filled subject)
    (relations : ∀ key parent, m'.relations.get? key = some parent →
      registry.isRegistered key.child.model = true ∧ registry.isRegistered parent.model = true) :
    m'.Sound registry where
  keyed := ⟨roles ▸ sound.keyed.roles, entries ▸ sound.keyed.entries⟩
  roles := roles ▸ sound.roles
  labels := roles ▸ sound.labels
  entries := by
    intro key entry found
    rw [entries] at found
    have bears := sound.entries key entry found
    exact ⟨roles ▸ bears.role, bears.applies⟩
  members := members
  relations := relations

theorem addMember_sound (sound : m.Sound registry) {group subject : String}
    (admissible : (Change.addMember group subject).Admissible registry m) :
    (m.addMember group subject).Sound registry := by
  refine sound.of_same rfl rfl (fun name subjects found => ?_) sound.relations
  rw [addMember, SortedMap.get?_insert] at found
  split at found
  · rename_i here
    cases found
    refine ⟨here ▸ admissible.1, ⟨subject, SortedSet.mem_insert.mpr (.inl rfl)⟩, fun other mem => ?_⟩
    rcases SortedSet.mem_insert.mp mem with rfl | mem
    · exact admissible.2
    · obtain ⟨subjects, stored, mem⟩ := mem_group_iff.mp mem
      exact (sound.members group subjects stored).2.2 other mem
  · exact sound.members name subjects found

theorem removeMember_sound (sound : m.Sound registry) (group subject : String) :
    (m.removeMember group subject).Sound registry := by
  refine sound.of_same rfl rfl (fun name subjects found => ?_) sound.relations
  unfold removeMember at found
  dsimp only at found
  split at found
  · rw [SortedMap.get?_erase] at found
    split at found
    · cases found
    · exact sound.members name subjects found
  · rename_i filled
    rw [SortedMap.get?_insert] at found
    split at found
    · rename_i here
      cases found
      -- Who is left was in the group before, so the group was stored and had a proper name.
      obtain ⟨left, mem⟩ := SortedSet.isEmpty_eq_false_iff.mp (Bool.eq_false_iff.mpr filled)
      obtain ⟨subjects, stored, _⟩ := mem_group_iff.mp (SortedSet.mem_erase.mp mem).2
      obtain ⟨named, _, members⟩ := sound.members group subjects stored
      refine ⟨here ▸ named, ⟨left, mem⟩, fun other mem => ?_⟩
      obtain ⟨_, stored', mem⟩ := mem_group_iff.mp (SortedSet.mem_erase.mp mem).2
      cases stored.symm.trans stored'
      exact members other mem
    · exact sound.members name subjects found

theorem setRelation_sound (sound : m.Sound registry) {child parent : Object} {relation : String}
    (admissible : (Change.setRelation child relation parent).Admissible registry m)
    (served : m.setRelation child relation parent = .ok m') : m'.Sound registry := by
  rw [setRelation_ok served]
  refine sound.of_same rfl rfl sound.members fun key next found => ?_
  rw [SortedMap.get?_insert] at found
  split at found
  · rename_i here
    cases found
    rw [here]
    exact admissible
  · exact sound.relations key next found

theorem clearRelation_sound (sound : m.Sound registry) (child : Object) (relation : String) :
    (m.clearRelation child relation).Sound registry := by
  refine sound.of_same rfl rfl sound.members fun key next found => ?_
  rw [clearRelation, SortedMap.get?_erase] at found
  split at found
  · cases found
  · exact sound.relations key next found

theorem serve_sound (sound : m.Sound registry) {change : Change}
    (admissible : change.Admissible registry m) (served : change.serve m = .ok m') :
    m'.Sound registry := by
  cases change with
  | createRole role => exact createRole_sound sound admissible served
  | editRole id edit =>
    obtain ⟨⟨changed, m''⟩, edited, rfl⟩ := map_ok served
    exact editRole_sound sound admissible edited
  | deleteRole id =>
    cases served
    exact deleteRole_sound sound id
  | addMember group subject =>
    cases served
    exact addMember_sound sound admissible
  | removeMember group subject =>
    cases served
    exact removeMember_sound sound group subject
  | addPermission target role permission =>
    cases served
    exact addPermission_sound sound admissible
  | removePermission target role permission =>
    cases served
    exact removePermission_sound sound target role permission
  | deleteEntriesOf id =>
    cases served
    exact deleteEntriesOf_sound sound id
  | setRelation child relation parent => exact setRelation_sound sound admissible served
  | clearRelation child relation =>
    cases served
    exact clearRelation_sound sound child relation
  | record event =>
    cases served
    exact sound.of_same rfl rfl sound.members sound.relations

end Memory

/-! ### Runs -/

/-- Each of the changes is admissible when its turn comes. -/
def Change.AllAdmissible (registry : Registry) (m : Memory) : List Change → Prop
  | [] => True
  | change :: rest =>
    change.Admissible registry m ∧ ∀ m', change.serve m = .ok m' → AllAdmissible registry m' rest

theorem Memory.serveAll_sound {registry : Registry} {m m' : Memory} (sound : m.Sound registry)
    {changes : List Change} (admissible : Change.AllAdmissible registry m changes)
    (served : Change.serveAll m changes = .ok m') : m'.Sound registry := by
  induction changes generalizing m with
  | nil =>
    cases served
    exact sound
  | cons change rest ih =>
    obtain ⟨next, first, others⟩ := Change.serveAll_cons_ok.mp served
    exact ih (Memory.serve_sound sound admissible.1 first) (admissible.2 next first) others

namespace Site

variable {site : Site Memory} {actor : User}

theorem Effects.admissible {operation : Operation} {changes : List Change}
    (effects : site.Effects actor operation changes) :
    Change.AllAdmissible site.registry site.store changes := by
  cases effects with
  | createRole _ read =>
    have filled := Text.filledText_filled read
    exact ⟨Role.bare_sound filled, fun _ _ => ⟨trivial, fun _ _ => trivial⟩⟩
  | deleteRole => exact ⟨trivial, fun _ _ => ⟨trivial, fun _ _ => ⟨trivial, fun _ _ => trivial⟩⟩⟩
  | editRole edits =>
    refine ⟨?_, fun _ _ => ⟨trivial, fun _ _ => trivial⟩⟩
    cases edits with
    | grant known => exact ⟨_, known⟩
    | revoke | attach | detach => trivial
  | addMember _ read => exact ⟨Text.membership_filled read, fun _ _ => ⟨trivial, fun _ _ => trivial⟩⟩
  | removeMember | revoke => exact ⟨trivial, fun _ _ => ⟨trivial, fun _ _ => trivial⟩⟩
  | grant _ applies found => exact ⟨⟨⟨_, found⟩, applies⟩, fun _ _ => ⟨trivial, fun _ _ => trivial⟩⟩
  | setRelation allowed =>
    have known := (requireRelationEdit_ok allowed).1
    exact ⟨⟨known _ (by simp), known _ (by simp)⟩, fun _ _ => trivial⟩
  | clearRelation => exact ⟨trivial, fun _ _ => trivial⟩

theorem Asks.admissible {call : Call} {changes : List Change} (asks : site.Asks call changes) :
    Change.AllAdmissible site.registry site.store changes := by
  cases asks with
  | perform effects => exact effects.admissible
  | grant applies found => exact ⟨⟨⟨_, found⟩, applies⟩, fun _ _ => trivial⟩
  | revoke => exact ⟨trivial, fun _ _ => trivial⟩

theorem afterCall_sound (sound : site.store.Sound site.registry) (call : Call) :
    (site.afterCall call).store.Sound site.registry ∧
      (site.afterCall call).registry = site.registry := by
  rcases afterCall_did site call with ⟨drawn, idle⟩ | ⟨changes, m, drawn, asks, served, same⟩
  · rw [idle]
    exact ⟨sound, rfl⟩
  · rw [same]
    exact ⟨Memory.serveAll_sound sound asks.admissible served, rfl⟩

theorem afterCalls_sound (sound : site.store.Sound site.registry) (calls : List Call) :
    (site.afterCalls calls).store.Sound site.registry := by
  induction calls generalizing site with
  | nil => exact sound
  | cons call rest ih =>
    obtain ⟨kept, same⟩ := afterCall_sound sound call
    rw [← same] at kept ⊢
    exact ih kept

/-- Whatever a site is asked for from an empty store on, its entries are of stored roles and list what
applies to their objects, roles have declared permissions and distinct labels, labels, groups and members
are written as they should be, no group is without members, and relations are of registered models. -/
theorem sound_from_empty (site : Site Memory) (calls : List Call) :
    (afterCalls { site with store := ∅ } calls).store.Sound site.registry := by
  let empty : Site Memory := { site with store := ∅ }
  have start : empty.store.Sound empty.registry := Memory.empty_sound site.registry
  exact afterCalls_sound start calls

/-- Where no relation is pinned, relations lead between objects of registered models only. -/
theorem grounded_of_sound (sound : site.store.Sound site.registry) (unpinned : site.pinned = ∅) :
    site.relations.Grounded site.registry := by
  refine Memory.grounded (fun parent mem => ?_) fun pin mem => ?_
  · obtain ⟨key, found⟩ := SortedMap.mem_values_iff.mp mem
    exact (sound.relations key parent found).2
  · rw [unpinned] at mem
    cases mem

/-- A site where nothing is stored. -/
def blank (registry : Registry) (overrides : Overrides) : Site Memory :=
  { registry, overrides, store := ∅ }

theorem afterCalls_blank (registry : Registry) (overrides : Overrides) (calls : List Call) :
    let site := (blank registry overrides).afterCalls calls
    site.registry = registry ∧ site.store.Sound registry ∧ site.relations.Grounded registry := by
  intro site
  obtain ⟨same, unpinned⟩ := afterCalls_frame (blank registry overrides) calls
  have start : (blank registry overrides).store.Sound (blank registry overrides).registry :=
    Memory.empty_sound registry
  have sound : site.store.Sound site.registry := same ▸ afterCalls_sound start calls
  have grounded := grounded_of_sound sound unpinned
  rw [same] at sound grounded
  exact ⟨same, sound, grounded⟩

end Site

namespace Sample

def root : User := ({ superusers := .ofList ["root"] } : Overrides).user "root"

/-- Sets up a role of one member with an entry on itself, and relates it to another role. -/
def opening : List Site.Call := [
  .perform root (.createRole " clerk " (some (Uuid.drawn 1))),
  .perform root (.attachGroup (Uuid.drawn 1) "staff "),
  .perform root (.addMember " staff" "ann"),
  .grant (roleObject (Uuid.drawn 1)) editRoles (Uuid.drawn 1),
  .perform root (.setRelation (roleObject (Uuid.drawn 1)) "parent" (roleObject (Uuid.drawn 2)))]

end Sample

open Sample in
example : (Site.afterCalls { office with store := ∅ } opening).store = {
    roles := .ofList [(Uuid.drawn 1, ⟨Uuid.drawn 1, "clerk", ∅, .ofList ["staff"]⟩)]
    members := .ofList [("staff", .ofList ["ann"])]
    entries := .ofList [(⟨roleObject (Uuid.drawn 1), Uuid.drawn 1⟩,
      ⟨.numbered 1, roleObject (Uuid.drawn 1), Uuid.drawn 1, .ofList [editRoles]⟩)]
    relations := .ofList [(⟨roleObject (Uuid.drawn 1), "parent"⟩, roleObject (Uuid.drawn 2))]
    events := (Site.afterCalls { office with store := ∅ } opening).store.events
    entriesMade := 1 } := by
  decide +kernel

end Entitlement
