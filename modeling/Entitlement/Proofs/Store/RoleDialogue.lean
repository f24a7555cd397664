import Entitlement.Proofs.Access.Contents
import Entitlement.Proofs.Store.Dialogue
import Entitlement.Proofs.Store.RoleTables

/-!
# Roles and members asked of two stores

An empty store in memory and an empty relational store do not always answer the same to what is asked
about roles and members. They do as long as no role is created under an identifier that is taken, and
every group is attached under its normal name (`role_answers_alike_iff`).
-/

namespace Entitlement

open Text Dialogue

/-! ### Requests -/

/-- What a store is asked about roles and members. -/
inductive RoleRequest where
  | create (role : Role)
  | find (id : RoleId)
  | list
  | edit (id : RoleId) (edit : RoleEdit)
  | delete (id : RoleId)
  | addMember (group subject : String)
  | removeMember (group subject : String)
  | members (group : String)
  | rolesOf (subject : String)
deriving DecidableEq

inductive RoleReply where
  | done
  | role (found : Option Role)
  | roles (listed : List Role)
  | changed (changed : Bool)
  | subjects (listed : List String)
deriving DecidableEq

/-- The same reply, apart from the order of lists. -/
def RoleReply.Same : RoleReply → RoleReply → Prop
  | .roles listed, .roles listed' => listed.Perm listed'
  | .subjects listed, .subjects listed' => listed.Perm listed'
  | reply, reply' => reply = reply'

/-- The failures are reported under one kind, whatever there is to say about them. -/
def Failure.SameKind (failure failure' : Failure) : Prop :=
  failure.report.ctorIdx = failure'.report.ctorIdx

def RoleEdit.texts : RoleEdit → List String
  | .grant permission | .revoke permission => [permission.toText]
  | .attach group | .detach group => [group]

namespace RoleRequest

/-- The reply of a store, and the store after it. -/
def ask {σ : Type} [Store σ] (store : σ) : RoleRequest → Except Failure (RoleReply × σ)
  | .create role => (Store.createRole store role).map (.done, ·)
  | .find id => (Store.findRole store id).map (.role ·, store)
  | .list => (Store.listRoles store).map (.roles ·, store)
  | .edit id change =>
    (Store.editRole store id change).map fun (changed, store) => (.changed changed, store)
  | .delete id => (Store.deleteRole store id).map (.done, ·)
  | .addMember group subject => (Store.addMember store group subject).map (.done, ·)
  | .removeMember group subject => (Store.removeMember store group subject).map (.done, ·)
  | .members group => (Store.membersOf store group).map (.subjects ·, store)
  | .rolesOf subject => (Store.rolesOf store subject).map (.roles ·, store)

def texts : RoleRequest → List String
  | .create role =>
    role.label :: role.permissions.toList.map Permission.toText ++ role.groups.toList
  | .edit _ change => change.texts
  | .addMember group subject | .removeMember group subject => [group, subject]
  | .members group => [group]
  | .rolesOf subject => [subject]
  | .find _ | .list | .delete _ => []

/-- No text in the request has U+0000 in it. -/
def Plain (request : RoleRequest) : Prop := ∀ text ∈ request.texts, Database.hasNul text = false

instance (request : RoleRequest) : Decidable request.Plain :=
  inferInstanceAs (Decidable (∀ text ∈ request.texts, _))

/-- A request that stores in memory and relational stores take in the same way: a role to be created
has a label that is taken, or an identifier that is not and a label that is read back; a group to be
attached to a role that is stored has its normal name, or the role has it under both names. -/
def Fits (m : Memory) : RoleRequest → Prop
  | .create role =>
    (∃ stored ∈ m.roles.values, stored.label = role.label) ∨
      m.roles.get? role.id = none ∧ allBlank role.label = false
  | .edit id (.attach group) => ∀ role, m.roles.get? id = some role →
    ∃ name, groupName group = .ok name ∧
      (name = group ∨ name ∈ role.groups ∧ group ∈ role.groups)
  | _ => True

end RoleRequest

/-! ### Edits of rows -/

namespace Database

/-- Whether an edit adds or deletes a row. -/
def changedBy (db : Database) (id : RoleId) : RoleEdit → Bool
  | .grant permission => db.hasRole id && ! db.rolePermissions.contains ⟨id, permission.toText⟩
  | .revoke permission => db.rolePermissions.contains ⟨id, permission.toText⟩
  | .attach group => db.hasRole id && ! db.roleGroups.contains ⟨id, group⟩
  | .detach group => db.roleGroups.contains ⟨id, group⟩

/-- The rows with those of one more role. -/
def withRole (db : Database) (role : Role) : Database :=
  { db with
    roles := db.roles ++ [⟨role.id, role.label⟩]
    rolePermissions := db.rolePermissions ++
      (role.permissions.toList.map Permission.toText).map (⟨role.id, ·⟩)
    roleGroups := db.roleGroups ++ role.groups.toList.map (⟨role.id, ·⟩) }

/-- The rows with one added or deleted. -/
def withEdit (db : Database) (id : RoleId) : RoleEdit → Database
  | .grant permission =>
    { db with rolePermissions := db.rolePermissions ++ [⟨id, permission.toText⟩] }
  | .revoke permission =>
    { db with rolePermissions := db.rolePermissions.filter (· ≠ ⟨id, permission.toText⟩) }
  | .attach group => { db with roleGroups := db.roleGroups ++ [⟨id, group⟩] }
  | .detach group => { db with roleGroups := db.roleGroups.filter (· ≠ ⟨id, group⟩) }

theorem createRole_eq {db : Database} (away : db.away = []) {role : Role}
    (plain : (RoleRequest.create role).Plain) :
    db.createRole role =
      if db.roles.any fun row => row.id == role.id || row.label == role.label then
        .error (.labelTaken role.label)
      else .ok (db.withRole role) := by
  obtain ⟨label, rest⟩ := List.forall_mem_cons.mp plain
  obtain ⟨permissions, groups⟩ := List.forall_mem_append.mp rest
  unfold createRole
  dsimp only [bind, Except.bind]
  rw [send_ok away (by simpa using label)]
  dsimp only
  split
  · rfl
  · dsimp only [pure, Except.pure]
    rw [send_ok away permissions, send_ok away groups]
    rfl

theorem readRole_ne_ok {db : Database} {row : RoleRow} (blank : allBlank row.label = true)
    (role : Role) : db.readRole row ≠ .ok role := by
  intro read
  obtain ⟨permissions, _, read⟩ := bind_ok read
  rw [Role.of?, if_pos blank] at read
  cases read

theorem editRole_eq {db : Database} (away : db.away = []) {change : RoleEdit}
    (plain : ∀ text ∈ change.texts, hasNul text = false) {id : RoleId} :
    db.editRole id change = db.edited id (db.changedBy id change) (db.withEdit id change) := by
  have sent (tables : List Table) : db.send (.editRole id) tables change.texts = .ok () :=
    send_ok away plain _ tables
  cases change with
  | grant permission | attach group =>
    exact (congrArg (· >>= _) (sent _)).trans rfl
  | revoke permission | detach group =>
    exact (congrArg (· >>= _) (sent _)).trans rfl

end Database

/-! ### Stores with the same roles -/

/-- The stores hold the same roles and members, and the tables are all in place. -/
structure Alongside (m : Memory) (db : Database) : Prop where
  away : db.away = []
  roles : SameRoles m.roles db.roles db.rolePermissions db.roleGroups
  members : SameMembers m.group db.members

namespace Alongside

variable {m : Memory} {db : Database} {id : RoleId} {role : Role}

theorem empty : Alongside ∅ ∅ := ⟨rfl, .empty, .empty⟩

theorem readRole_ok (along : Alongside m db) (found : m.roles.get? id = some role) :
    db.readRole (role.row id) = .ok role := by
  have written (text : String) :
      text ∈ (SortedSet.ofList ((db.rolePermissions.filter (·.role == id)).map
        (·.permission))).toList ↔ ∃ p ∈ role.permissions, p.toText = text := by
    rw [SortedSet.mem_toList_iff, SortedSet.mem_ofList,
      mem_map_filter RolePermissionRow.mk (fun _ => rfl) (fun _ _ => ⟨rfl, rfl⟩),
      along.roles.permissions.of_found found]
    exact Iff.rfl
  have groups : SortedSet.ofList ((db.roleGroups.filter (·.role == id)).map (·.group)) =
      role.groups := by
    refine SortedSet.ext fun group => ?_
    rw [SortedSet.mem_ofList, mem_map_filter RoleGroupRow.mk (fun _ => rfl) (fun _ _ => ⟨rfl, rfl⟩),
      along.roles.groups.of_found found]
    exact Iff.rfl
  have kept := along.roles.kept id role found
  unfold Database.readRole
  dsimp only [Role.row]
  rw [decodePermissions_eq written, groups, ← kept.id]
  dsimp only [bind, Except.bind]
  rw [Role.of?, kept.filled]
  rfl

theorem findRole_eq (along : Alongside m db) (id : RoleId) :
    db.findRole id = .ok (m.roles.get? id) := by
  unfold Database.findRole
  rw [Database.send_ok along.away (by simp), along.roles.find?]
  cases found : m.roles.get? id with
  | none => rfl
  | some role =>
    change some <$> db.readRole (role.row id) = _
    rw [along.readRole_ok found]
    rfl

theorem hasRole_eq (along : Alongside m db) (id : RoleId) :
    db.hasRole id = (m.roles.get? id).isSome := along.roles.any_id id

theorem withEdit (along : Alongside m db) (found : m.roles.get? id = some role)
    (change : RoleEdit) :
    Alongside { m with roles := m.roles.insert id (role.edit change) } (db.withEdit id change) := by
  have permissions := along.roles.permissions.of_found found
  have groups := along.roles.groups.of_found found
  cases change with
  | grant permission =>
    refine { along with
      roles := along.roles.update found ⟨rfl, rfl⟩ ?_
        (along.roles.groups.insert groups fun _ _ _ => Iff.rfl) }
    apply along.roles.permissions.insert
    · intro text
      rw [Database.withEdit, List.mem_append, List.mem_singleton, RolePermissionRow.mk.injEq,
        and_iff_right rfl, permissions]
      exact exists_toText_insert.symm
    · intro key text other
      simp [Database.withEdit, other]
  | revoke permission =>
    refine { along with
      roles := along.roles.update found ⟨rfl, rfl⟩ ?_
        (along.roles.groups.insert groups fun _ _ _ => Iff.rfl) }
    apply along.roles.permissions.insert
    · intro text
      rw [Database.withEdit, List.mem_filter, decide_eq_true_iff, ne_eq, RolePermissionRow.mk.injEq,
        and_iff_right rfl, permissions]
      exact exists_toText_erase.symm
    · intro key text other
      simp [Database.withEdit, other]
  | attach group =>
    refine { along with
      roles := along.roles.update found ⟨rfl, rfl⟩
        (along.roles.permissions.insert permissions fun _ _ _ => Iff.rfl) ?_ }
    apply along.roles.groups.insert
    · intro name
      rw [Database.withEdit, List.mem_append, List.mem_singleton, RoleGroupRow.mk.injEq,
        and_iff_right rfl, groups, or_comm]
      exact SortedSet.mem_insert.symm
    · intro key name other
      simp [Database.withEdit, other]
  | detach group =>
    refine { along with
      roles := along.roles.update found ⟨rfl, rfl⟩
        (along.roles.permissions.insert permissions fun _ _ _ => Iff.rfl) ?_ }
    apply along.roles.groups.insert
    · intro name
      rw [Database.withEdit, List.mem_filter, decide_eq_true_iff, ne_eq, RoleGroupRow.mk.injEq,
        and_iff_right rfl, groups, and_comm]
      exact SortedSet.mem_erase.symm
    · intro key name other
      simp [Database.withEdit, other]

/-- An edit of a role that is not stored is refused whatever it is. -/
theorem editRole_missing (along : Alongside m db) (absent : m.roles.get? id = none)
    {change : RoleEdit} (plain : ∀ text ∈ change.texts, Database.hasNul text = false) :
    db.editRole id change = .error (.roleMissing id) := by
  have missing : db.hasRole id = false := by
    rw [along.hasRole_eq, absent]
    rfl
  have unchanged : db.changedBy id change = false := by
    cases change with
    | grant permission => rw [Database.changedBy, missing, Bool.false_and]
    | revoke permission =>
      exact Bool.eq_false_iff.mpr fun mem =>
        along.roles.permissions.not_mem absent _ (List.contains_iff_mem.mp mem)
    | attach group => rw [Database.changedBy, missing, Bool.false_and]
    | detach group =>
      exact Bool.eq_false_iff.mpr fun mem =>
        along.roles.groups.not_mem absent _ (List.contains_iff_mem.mp mem)
  rw [Database.editRole_eq along.away plain, unchanged]
  unfold Database.edited Database.requireRole
  rw [Database.send_ok along.away (by simp), missing]
  rfl

/-- A relational store edits a stored role as the role itself is edited, without asking what the group
in the edit should be called. -/
theorem editRole_ok (along : Alongside m db) (found : m.roles.get? id = some role)
    (change : RoleEdit) (plain : ∀ text ∈ change.texts, Database.hasNul text = false) :
    ∃ db', db.editRole id change = .ok (role.changedBy change, db') ∧
      Alongside { m with roles := m.roles.insert id (role.edit change) } db' := by
  have stored : db.hasRole id = true := by
    rw [along.hasRole_eq, found]
    rfl
  have changed : db.changedBy id change = role.changedBy change := by
    cases change with
    | grant permission =>
      rw [Database.changedBy, stored, along.roles.contains_permission found]
      rfl
    | revoke permission => exact along.roles.contains_permission found permission
    | attach group =>
      rw [Database.changedBy, stored, along.roles.contains_group found]
      rfl
    | detach group => exact along.roles.contains_group found group
  rw [Database.editRole_eq along.away plain, changed]
  cases differs : role.changedBy change with
  | true => exact ⟨_, rfl, along.withEdit found change⟩
  | false =>
    rw [Memory.edit_of_not_changed differs, SortedMap.insert_of_get? found]
    refine ⟨db, ?_, along⟩
    unfold Database.edited Database.requireRole
    rw [Database.send_ok along.away (by simp), stored]
    rfl

theorem taken_iff (along : Alongside m db) (role : Role) :
    (db.roles.any fun row => row.id == role.id || row.label == role.label) = true ↔
      m.roles.get? role.id ≠ none ∨ ∃ stored ∈ m.roles.values, stored.label = role.label := by
  rw [along.roles.tabulated.any, Option.ne_none_iff_exists']
  constructor
  · rintro ⟨id, stored, found, picked⟩
    rcases Bool.or_eq_true_iff.mp picked with same | same
    · have here : id = role.id := beq_iff_eq.mp same
      exact .inl ⟨stored, here ▸ found⟩
    · exact .inr ⟨stored, SortedMap.mem_values_iff.mpr ⟨id, found⟩, beq_iff_eq.mp same⟩
  · rintro (⟨stored, found⟩ | ⟨stored, mem, same⟩)
    · exact ⟨role.id, stored, found, Bool.or_eq_true_iff.mpr (.inl (beq_self_eq_true _))⟩
    · obtain ⟨id, found⟩ := SortedMap.mem_values_iff.mp mem
      exact ⟨id, stored, found, Bool.or_eq_true_iff.mpr (.inr (beq_iff_eq.mpr same))⟩

theorem createRole_eq (along : Alongside m db) (plain : (RoleRequest.create role).Plain) :
    db.createRole role =
      if m.roles.get? role.id ≠ none ∨ ∃ stored ∈ m.roles.values, stored.label = role.label then
        .error (.labelTaken role.label)
      else .ok (db.withRole role) := by
  rw [Database.createRole_eq along.away plain]
  exact ite_congr (propext (along.taken_iff role)) (fun _ => rfl) fun _ => rfl

theorem withRole (along : Alongside m db) (free : m.roles.get? role.id = none)
    (filled : allBlank role.label = false) :
    Alongside { m with roles := m.roles.insert role.id role } (db.withRole role) :=
  { along with roles := along.roles.create free filled }

/-- A new role with a blank label is stored, and then cannot be looked up. -/
theorem findRole_withRole_ne_ok (along : Alongside m db) (free : m.roles.get? role.id = none)
    (blank : allBlank role.label = true) (found : Option Role) :
    (db.withRole role).findRole role.id ≠ .ok found := by
  have row : (db.withRole role).roles.find? (·.id == role.id) = some ⟨role.id, role.label⟩ := by
    have absent : db.roles.find? (·.id == role.id) = none := by rw [along.roles.find?, free]; rfl
    rw [Database.withRole, List.find?_append, absent]
    simp
  have away : (db.withRole role).away = [] := along.away
  unfold Database.findRole
  rw [Database.send_ok away (by simp), row]
  intro read
  change some <$> (db.withRole role).readRole ⟨role.id, role.label⟩ = .ok found at read
  cases value : (db.withRole role).readRole ⟨role.id, role.label⟩ with
  | error failure =>
    rw [value] at read
    cases read
  | ok other => exact Database.readRole_ne_ok blank other value

theorem listRoles_ok (along : Alongside m db) :
    ∃ listed, db.listRoles = .ok listed ∧ (sortOn (·.label) m.roles.values).Perm listed := by
  have sorted : Tabulates Role.row m.roles (sortOn (·.label) db.roles) :=
    (sortOn_perm _ _).trans along.roles.tabulated
  obtain ⟨listed, ran, perm⟩ := sorted.read_perm db.readRole fun _ _ found => along.readRole_ok found
  refine ⟨listed, ?_, (sortOn_perm _ _).trans perm.symm⟩
  unfold Database.listRoles
  rw [Database.send_ok along.away (by simp)]
  exact ran

theorem isHeldBy_eq (along : Alongside m db) (found : m.roles.get? id = some role)
    (subject : String) : db.isHeldBy (role.row id) subject = m.isHeldBy role subject := by
  rw [Bool.eq_iff_iff, Database.isHeldBy, Memory.isHeldBy, List.any_eq_true, List.any_eq_true]
  constructor
  · rintro ⟨⟨key, group⟩, mem, held⟩
    obtain ⟨here, member⟩ := Bool.and_eq_true_iff.mp held
    have same : key = id := beq_iff_eq.mp here
    rw [same, along.roles.groups.of_found found] at mem
    rw [along.members.contains] at member
    exact ⟨group, SortedSet.mem_toList_iff.mpr mem, member⟩
  · rintro ⟨group, mem, member⟩
    have row := (along.roles.groups.of_found found group).mpr (SortedSet.mem_toList_iff.mp mem)
    rw [← along.members.contains] at member
    exact ⟨_, row, Bool.and_eq_true_iff.mpr ⟨beq_self_eq_true id, member⟩⟩

theorem rolesOf_ok (along : Alongside m db) {subject : String}
    (plain : Database.hasNul subject = false) :
    ∃ listed, db.rolesOf subject = .ok listed ∧ (m.rolesOf subject).Perm listed := by
  have held := along.roles.tabulated.filter (fun _ role => m.isHeldBy role subject)
    (db.isHeldBy · subject) fun _ _ found => along.isHeldBy_eq found subject
  have sorted : Tabulates Role.row _ (sortOn (·.label) (db.roles.filter (db.isHeldBy · subject))) :=
    (sortOn_perm _ _).trans held
  obtain ⟨listed, ran, perm⟩ := sorted.read_perm db.readRole fun id role found => by
    rw [SortedMap.get?_filter, Option.filter_eq_some_iff] at found
    exact along.readRole_ok found.1
  rw [SortedMap.values_filter (m.isHeldBy · subject) fun _ _ _ => rfl] at perm
  refine ⟨listed, ?_, (sortOn_perm _ _).trans perm.symm⟩
  unfold Database.rolesOf
  rw [Database.send_ok along.away (by simpa using plain)]
  exact ran

theorem membersOf_ok (along : Alongside m db) {group : String}
    (plain : Database.hasNul group = false) :
    ∃ listed, db.membersOf group = .ok listed ∧ (m.group group).toList.Perm listed := by
  refine ⟨_, ?_, (along.members.list_perm group).symm.trans (sortOn_perm id _).symm⟩
  unfold Database.membersOf
  rw [Database.send_ok along.away (by simpa using plain)]
  rfl

theorem addMember_ok (along : Alongside m db) {group subject : String}
    (plain : Database.hasNul group = false) (plain' : Database.hasNul subject = false) :
    ∃ db', db.addMember group subject = .ok db' ∧ Alongside (m.addMember group subject) db' := by
  have added := along.members.add group subject
  unfold Database.addMember
  rw [Database.send_ok along.away (by simp [plain, plain'])]
  refine ⟨_, rfl, ?_⟩
  split
  · rename_i known
    rw [if_pos known] at added
    exact { along with members := added }
  · rename_i new
    rw [if_neg new] at added
    exact { along with members := added }

theorem removeMember_ok (along : Alongside m db) {group subject : String}
    (plain : Database.hasNul group = false) (plain' : Database.hasNul subject = false) :
    ∃ db', db.removeMember group subject = .ok db' ∧
      Alongside (m.removeMember group subject) db' := by
  unfold Database.removeMember
  rw [Database.send_ok along.away (by simp [plain, plain'])]
  exact ⟨_, rfl, { along with members := along.members.remove group subject }⟩

theorem deleteRole_ok (along : Alongside m db) (id : RoleId) :
    ∃ db', db.deleteRole id = .ok db' ∧ Alongside (m.deleteRole id) db' := by
  unfold Database.deleteRole
  rw [Database.send_ok along.away (by simp)]
  cases stored : db.hasRole id with
  | true => exact ⟨_, rfl, { along with roles := along.roles.delete id }⟩
  | false =>
    rw [along.hasRole_eq, Option.isSome_eq_false_iff, Option.isNone_iff_eq_none] at stored
    have roles := along.roles
    rw [← SortedMap.erase_of_get? stored] at roles
    exact ⟨db, rfl, { along with roles }⟩

/-- A group that fits is attached as it stands, or changes nothing under either name. -/
theorem editRole_agree (along : Alongside m db) {change : RoleEdit}
    (plain : (RoleRequest.edit id change).Plain) (fits : (RoleRequest.edit id change).Fits m) :
    Agree Failure.SameKind Eq Alongside (m.editRole id change) (db.editRole id change) := by
  unfold Memory.editRole
  cases found : m.roles.get? id with
  | none =>
    rw [along.editRole_missing found plain]
    exact .error rfl
  | some role =>
    obtain ⟨db', edited, after⟩ := along.editRole_ok found change plain
    have normal : ∃ normal, change.normal = .ok normal ∧
        role.changedBy normal = role.changedBy change ∧ role.edit normal = role.edit change := by
      cases change with
      | attach group =>
        obtain ⟨name, read, same⟩ := fits role found
        refine ⟨.attach name, by rw [RoleEdit.normal, read]; rfl, ?_⟩
        rcases same with rfl | ⟨mem, mem'⟩
        · exact ⟨rfl, rfl⟩
        · have unchanged {group : String} (mem : group ∈ role.groups) :
              role.changedBy (.attach group) = false := by
            rw [Role.changedBy, SortedSet.mem_iff.mp mem]
            rfl
          rw [unchanged mem, unchanged mem', Memory.edit_of_not_changed (unchanged mem),
            Memory.edit_of_not_changed (unchanged mem')]
          exact ⟨rfl, rfl⟩
      | _ => exact ⟨_, rfl, rfl, rfl⟩
    obtain ⟨normal, read, changes, edits⟩ := normal
    rw [edited, read, ← changes]
    refine .ok ⟨rfl, ?_⟩
    rw [edits]
    exact after

theorem createRole_agree (along : Alongside m db) (plain : (RoleRequest.create role).Plain)
    (fits : (RoleRequest.create role).Fits m) :
    Alike Failure.SameKind Alongside (m.createRole role) (db.createRole role) := by
  have labels : m.roles.values.any (·.label == role.label) = true ↔
      ∃ stored ∈ m.roles.values, stored.label = role.label := by simp
  rw [along.createRole_eq plain]
  unfold Memory.createRole
  by_cases taken : ∃ stored ∈ m.roles.values, stored.label = role.label
  · rw [if_pos (labels.mpr taken), if_pos (.inr taken)]
    exact .error rfl
  · obtain ⟨free, filled⟩ := fits.resolve_left taken
    rw [if_neg (mt labels.mp taken), if_neg (not_or_intro (not_not_intro free) taken)]
    exact .ok (along.withRole free filled)

theorem agree (along : Alongside m db) {request : RoleRequest} (plain : request.Plain)
    (fits : request.Fits m) :
    Agree Failure.SameKind RoleReply.Same Alongside (request.ask m) (request.ask db) := by
  unfold RoleRequest.ask
  cases request with
  | create role =>
    have created := along.createRole_agree plain fits
    exact created.map fun _ _ after => ⟨rfl, after⟩
  | find id =>
    refine Alike.map (alike_of_eq (along.findRole_eq id)) fun _ _ same => ?_
    exact ⟨congrArg RoleReply.role same, along⟩
  | list =>
    refine Alike.map (alike_of_ok along.listRoles_ok) fun _ _ perm => ?_
    exact ⟨perm, along⟩
  | edit id change =>
    have edited := along.editRole_agree plain fits
    exact edited.map fun _ _ both => ⟨congrArg RoleReply.changed both.1, both.2⟩
  | delete id =>
    refine Alike.map (alike_of_ok (along.deleteRole_ok id)) fun _ _ after => ?_
    exact ⟨rfl, after⟩
  | addMember group subject =>
    simp only [RoleRequest.Plain, RoleRequest.texts, List.forall_mem_cons] at plain
    refine Alike.map (alike_of_ok (along.addMember_ok plain.1 plain.2.1)) fun _ _ after => ?_
    exact ⟨rfl, after⟩
  | removeMember group subject =>
    simp only [RoleRequest.Plain, RoleRequest.texts, List.forall_mem_cons] at plain
    refine Alike.map (alike_of_ok (along.removeMember_ok plain.1 plain.2.1)) fun _ _ after => ?_
    exact ⟨rfl, after⟩
  | members group =>
    simp only [RoleRequest.Plain, RoleRequest.texts, List.forall_mem_singleton] at plain
    refine Alike.map (alike_of_ok (along.membersOf_ok plain)) fun _ _ perm => ?_
    exact ⟨perm, along⟩
  | rolesOf subject =>
    simp only [RoleRequest.Plain, RoleRequest.texts, List.forall_mem_singleton] at plain
    refine Alike.map (alike_of_ok (along.rolesOf_ok plain)) fun _ _ perm => ?_
    exact ⟨perm, along⟩

/-! ### What tells that a request does not fit -/

/-- What is looked up after a change that both stores made. -/
theorem looked_up {request : RoleRequest} {answer answer' : RoleReply} {m' : Memory} {db' : Database}
    (asked : request.ask m = .ok (answer, m')) (asked' : request.ask db = .ok (answer', db'))
    {id : RoleId}
    (alike : List.Forall₂ (Alike Failure.SameKind RoleReply.Same)
      (answers RoleRequest.ask m [request, .find id])
      (answers RoleRequest.ask db [request, .find id])) :
    answer.Same answer' ∧ db'.findRole id = .ok (m'.roles.get? id) := by
  obtain ⟨first, second⟩ := alike_pair alike
  rw [next_of_ok asked, next_of_ok asked'] at second
  rw [asked, asked'] at first
  change Alike _ _ (.ok (RoleReply.role (m'.roles.get? id)))
    (((db'.findRole id).map _).map _) at second
  constructor
  · cases first with
    | ok same => exact same
  · generalize db'.findRole id = found at second ⊢
    cases found with
    | error failure => cases second
    | ok found =>
      cases second with
      | ok same => exact congrArg Except.ok (RoleReply.role.inj same).symm

theorem create_fits_of_alike (along : Alongside m db) (plain : (RoleRequest.create role).Plain)
    (alike : ∀ id, List.Forall₂ (Alike Failure.SameKind RoleReply.Same)
      (answers RoleRequest.ask m [.create role, .find id])
      (answers RoleRequest.ask db [.create role, .find id])) :
    (RoleRequest.create role).Fits m := by
  by_cases taken : ∃ stored ∈ m.roles.values, stored.label = role.label
  · exact .inl taken
  have labels : ¬ m.roles.values.any (·.label == role.label) = true := by simpa using taken
  let m' : Memory := { m with roles := m.roles.insert role.id role }
  have created : (RoleRequest.create role).ask m = .ok (.done, m') := by
    change (m.createRole role).map _ = _
    rw [Memory.createRole, if_neg labels]
    rfl
  have served := along.createRole_eq plain
  cases free : m.roles.get? role.id with
  | some stored =>
    rw [if_pos (.inl (by simp [free]))] at served
    have refused : (RoleRequest.create role).ask db = .error (.labelTaken role.label) := by
      change (db.createRole role).map _ = _
      rw [served]
      rfl
    have first := (alike_pair (alike role.id)).1
    rw [created, refused] at first
    cases first
  | none =>
    rw [if_neg (not_or_intro (by simp [free]) taken)] at served
    have created' : (RoleRequest.create role).ask db = .ok (.done, db.withRole role) := by
      change (db.createRole role).map _ = _
      rw [served]
      rfl
    have found := (looked_up created created' (alike role.id)).2
    refine .inr ⟨free, Bool.eq_false_iff.mpr fun blank => ?_⟩
    exact along.findRole_withRole_ne_ok free blank _ found

theorem attach_fits_of_alike (along : Alongside m db) {group : String}
    (plain : (RoleRequest.edit id (.attach group)).Plain)
    (alike : ∀ id', List.Forall₂ (Alike Failure.SameKind RoleReply.Same)
      (answers RoleRequest.ask m [.edit id (.attach group), .find id'])
      (answers RoleRequest.ask db [.edit id (.attach group), .find id'])) :
    (RoleRequest.edit id (.attach group)).Fits m := by
  intro role found
  obtain ⟨db', edited, after⟩ := along.editRole_ok found (.attach group) plain
  have asked' : (RoleRequest.edit id (.attach group)).ask db =
      .ok (.changed (role.changedBy (.attach group)), db') := by
    change (db.editRole id (.attach group)).map _ = _
    rw [edited]
    rfl
  cases read : groupName group with
  | error cause =>
    have refused : (RoleRequest.edit id (.attach group)).ask m = .error (.malformed cause) := by
      change (m.editRole id (.attach group)).map _ = _
      rw [Memory.editRole, found, RoleEdit.normal, read]
      rfl
    have first := (alike_pair (alike id)).1
    rw [refused, asked'] at first
    cases first
  | ok name =>
    have asked : (RoleRequest.edit id (.attach group)).ask m =
        .ok (.changed (role.changedBy (.attach name)),
          { m with roles := m.roles.insert id (role.edit (.attach name)) }) := by
      change (m.editRole id (.attach group)).map _ = _
      rw [Memory.editRole, found, RoleEdit.normal, read]
      rfl
    obtain ⟨same, looked⟩ := looked_up asked asked' (alike id)
    refine ⟨name, rfl, ?_⟩
    rw [after.findRole_eq, SortedMap.get?_insert_self, SortedMap.get?_insert_self] at looked
    have groups : role.groups.insert group = role.groups.insert name :=
      congrArg Role.groups (Option.some.inj (Except.ok.inj looked))
    have contains : role.groups.contains name = role.groups.contains group :=
      Bool.not_inj (RoleReply.changed.inj same)
    -- one store has added the name and the other the group as it stands
    by_cases mem : name ∈ role.groups
    · exact .inr ⟨mem, contains.symm.trans mem⟩
    · have among : name ∈ role.groups.insert group := by
        rw [groups]
        exact SortedSet.mem_insert.mpr (.inl rfl)
      exact .inl ((SortedSet.mem_insert.mp among).resolve_right mem)

theorem fits_of_alike (along : Alongside m db) {request : RoleRequest} (plain : request.Plain)
    (alike : ∀ id, List.Forall₂ (Alike Failure.SameKind RoleReply.Same)
      (answers RoleRequest.ask m [request, .find id])
      (answers RoleRequest.ask db [request, .find id])) : request.Fits m := by
  cases request with
  | create role => exact along.create_fits_of_alike plain alike
  | edit id change =>
    cases change with
    | attach group => exact along.attach_fits_of_alike plain alike
    | _ => trivial
  | _ => trivial

end Alongside

/-! ### New roles beside stored ones -/

namespace Database

variable {db db' : Database} {role : Role} {id : RoleId}

theorem createRole_inv (created : db.createRole role = .ok db') :
    db.hasRole role.id = false ∧ db' = db.withRole role := by
  obtain ⟨_, _, created⟩ := bind_ok created
  dsimp only at created
  split at created
  · cases created
  · rename_i free
    obtain ⟨_, _, created⟩ := bind_ok created
    obtain ⟨_, _, created⟩ := bind_ok created
    refine ⟨Bool.eq_false_iff.mpr fun taken => free ?_, (Except.ok.inj created).symm⟩
    obtain ⟨row, mem, same⟩ := List.any_eq_true.mp taken
    exact List.any_eq_true.mpr ⟨row, mem, Bool.or_eq_true_iff.mpr (.inl same)⟩

theorem readRole_withRole {row : RoleRow} (other : row.id ≠ role.id) :
    (db.withRole role).readRole row = db.readRole row := by
  have apart : (role.id == row.id) = false := beq_eq_false_iff_ne.mpr other.symm
  unfold readRole withRole
  simp [List.filter_append, List.filter_map, Function.comp_def, apart]

theorem findRole_withRole (other : id ≠ role.id) :
    (db.withRole role).findRole id = db.findRole id := by
  have same : (db.withRole role).roles.find? (·.id == id) = db.roles.find? (·.id == id) := by
    have apart : ¬ role.id = id := fun same => other same.symm
    rw [withRole, List.find?_append]
    simp [apart]
  unfold findRole
  rw [same]
  cases found : db.roles.find? (·.id == id) with
  | none => rfl
  | some row =>
    have picked := List.find?_some found
    have here : row.id = id := beq_iff_eq.mp picked
    have read : (db.withRole role).readRole row = db.readRole row :=
      readRole_withRole (here ▸ other)
    dsimp only
    rw [read]
    rfl

/-- A relational store leaves the stored roles alone when it stores another one. -/
theorem createRole_keeps (created : db.createRole role = .ok db') (stored : db.hasRole id = true) :
    db'.findRole id = db.findRole id := by
  obtain ⟨free, rfl⟩ := createRole_inv created
  apply findRole_withRole
  rintro rfl
  rw [free] at stored
  cases stored

end Database

/-- A store in memory does so exactly if the identifier of the new role is not taken. -/
theorem Memory.createRole_keeps_iff {m m' : Memory} {role : Role}
    (created : m.createRole role = .ok m') :
    (∀ id stored, m.roles.get? id = some stored → m'.roles.get? id = some stored) ↔
      m.roles.get? role.id = none := by
  obtain ⟨fresh, rfl⟩ := createRole_ok_iff.mp created
  constructor
  · intro kept
    rw [Option.eq_none_iff_forall_ne_some]
    intro stored found
    have now := kept role.id stored found
    rw [SortedMap.get?_insert_self] at now
    cases now
    exact fresh role.id role found rfl
  · intro free id stored found
    have other : id ≠ role.id := by
      rintro rfl
      rw [free] at found
      cases found
    rw [SortedMap.get?_insert, if_neg other, found]

/-! ### Answers -/

/-- From empty stores, the answers to some requests and to a look-up of any role after any of them are
the same in memory and from a relational store exactly if every request fits. -/
theorem role_answers_alike_iff (requests : List RoleRequest)
    (plain : ∀ request ∈ requests, request.Plain) :
    ((∀ n id, List.Forall₂ (Alike Failure.SameKind RoleReply.Same)
        (answers RoleRequest.ask (∅ : Memory) (requests.take n ++ [.find id]))
        (answers RoleRequest.ask (∅ : Database) (requests.take n ++ [.find id]))) ↔
      Throughout RoleRequest.ask RoleRequest.Fits (∅ : Memory) requests) ∧
    ∀ role,
      (∀ db db' : Database, db.createRole role = .ok db' →
        ∀ id, db.hasRole id = true → db'.findRole id = db.findRole id) ∧
      ∀ m m' : Memory, m.createRole role = .ok m' →
        ((∀ id stored, m.roles.get? id = some stored → m'.roles.get? id = some stored) ↔
          m.roles.get? role.id = none) := by
  constructor
  · refine alike_answers_iff (fun _ _ _ along => along.agree) ?_ ?_ Alongside.empty plain
    · intro id
      exact ⟨List.forall_mem_nil _, fun _ => trivial⟩
    · intro m db request along plain alike
      exact along.fits_of_alike plain alike
  · intro role
    exact ⟨fun _ _ created _ stored => Database.createRole_keeps created stored,
      fun _ _ created => Memory.createRole_keeps_iff created⟩

namespace Sample

/-- Makes the members of a group readers. -/
def hiring : List RoleRequest := [
  .create ⟨reader, "reader", ∅, ∅⟩,
  .edit reader (.attach "staff"),
  .addMember "staff" "ann",
  .rolesOf "ann"]

/-- Stores a role under the identifier of another one. -/
def clash : List RoleRequest := [
  .create ⟨reader, "reader", ∅, ∅⟩,
  .create ⟨reader, "writer", ∅, ∅⟩,
  .find reader]

/-- Attaches a group whose name begins with a blank, and one that has only blanks in its name. -/
def spacing : List RoleRequest := [
  .create ⟨reader, "reader", ∅, ∅⟩,
  .edit reader (.attach " staff"),
  .edit reader (.attach " "),
  .find reader]

end Sample

open Sample in
theorem role_answers_alike_when_hiring :
    (∀ request ∈ hiring, request.Plain) ∧
    ∀ n id, List.Forall₂ (Alike Failure.SameKind RoleReply.Same)
      (answers RoleRequest.ask (∅ : Memory) (hiring.take n ++ [.find id]))
      (answers RoleRequest.ask (∅ : Database) (hiring.take n ++ [.find id])) := by
  have plain : ∀ request ∈ hiring, request.Plain := by decide +kernel
  have fit : Throughout RoleRequest.ask RoleRequest.Fits (∅ : Memory) hiring :=
    ⟨.inr ⟨rfl, by decide⟩, fun _ _ => ⟨"staff", by rfl, .inl rfl⟩, trivial, trivial, trivial⟩
  exact ⟨plain, (role_answers_alike_iff hiring plain).1.mpr fit⟩

open Sample in
/-- In memory the second role takes the place of the first one, and groups get their normal names; a
relational store refuses the role and takes the names as they are. -/
theorem role_answers_differ :
    answers RoleRequest.ask (∅ : Memory) clash =
      [.ok .done, .ok .done, .ok (.role (some ⟨reader, "writer", ∅, ∅⟩))] ∧
    answers RoleRequest.ask (∅ : Database) clash =
      [.ok .done, .error (.labelTaken "writer"), .ok (.role (some ⟨reader, "reader", ∅, ∅⟩))] ∧
    answers RoleRequest.ask (∅ : Memory) spacing =
      [.ok .done, .ok (.changed true), .error (.malformed .blank),
        .ok (.role (some ⟨reader, "reader", ∅, .ofList ["staff"]⟩))] ∧
    answers RoleRequest.ask (∅ : Database) spacing =
      [.ok .done, .ok (.changed true), .ok (.changed true),
        .ok (.role (some ⟨reader, "reader", ∅, .ofList [" staff", " "]⟩))] := by
  decide +kernel

end Entitlement
