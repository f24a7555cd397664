import Entitlement.Proofs.Access.Contents
import Entitlement.Proofs.Store.Dialogue
import Entitlement.Proofs.Store.EntryTables

/-!
# Entries and relations asked of two stores

A store in memory and a relational store that hold no entries and no relations yet answer the same to
whatever is asked about these (`entry_answers_alike`), as long as no text has U+0000 in it and the roles
of new entries are stored.
-/

namespace Entitlement

open Text Dialogue

/-! ### Requests -/

/-- What a store is asked about entries and relations. -/
inductive EntryRequest where
  | find (target : Object) (role : RoleId)
  | addPermission (target : Object) (role : RoleId) (permission : Permission)
  | removePermission (target : Object) (role : RoleId) (permission : Permission)
  | deleteOf (role : RoleId)
  | on (target : Object)
  | granted (roles : List RoleId) (permission : Permission)
  | related (object : Object) (relation : String)
  | setRelation (child : Object) (relation : String) (parent : Object)
  | clearRelation (child : Object) (relation : String)
deriving DecidableEq

inductive EntryReply where
  | done
  | entry (found : Option Entry)
  | outcome (outcome : Outcome)
  | count (deleted : Nat)
  | entries (listed : List Entry)
  | objects (granted : SortedSet Object)
  | object (found : Option Object)
deriving DecidableEq

/-- The same reply, apart from the order in which the entries on an object are listed. -/
def EntryReply.Same : EntryReply → EntryReply → Prop
  | .entries listed, .entries listed' => listed.Perm listed'
  | reply, reply' => reply = reply'

namespace EntryRequest

/-- The reply of a store, and the store after it. -/
def ask {σ : Type} [Store σ] (store : σ) : EntryRequest → Except Failure (EntryReply × σ)
  | .find target role => (Store.findEntry store target role).map (.entry ·, store)
  | .addPermission target role permission =>
    (Store.addPermission store target role permission).map fun (outcome, store) =>
      (.outcome outcome, store)
  | .removePermission target role permission =>
    (Store.removePermission store target role permission).map fun (outcome, store) =>
      (.outcome outcome, store)
  | .deleteOf role =>
    (Store.deleteEntriesOf store role).map fun (deleted, store) => (.count deleted, store)
  | .on target => (Store.entriesOn store target).map (.entries ·, store)
  | .granted roles permission =>
    (Store.grantedObjects store roles permission).map (.objects ·, store)
  | .related object relation => (Store.related store object relation).map (.object ·, store)
  | .setRelation child relation parent =>
    (Store.setRelation store child relation parent).map (.done, ·)
  | .clearRelation child relation => (Store.clearRelation store child relation).map (.done, ·)

def objects : EntryRequest → List Object
  | .find target _ | .addPermission target _ _ | .removePermission target _ _ | .on target => [target]
  | .related object _ | .clearRelation object _ => [object]
  | .setRelation child _ parent => [child, parent]
  | .deleteOf _ | .granted _ _ => []

/-- The texts in a request besides its objects. -/
def texts : EntryRequest → List String
  | .addPermission _ _ permission | .removePermission _ _ permission | .granted _ permission =>
    [permission.toText]
  | .related _ relation | .setRelation _ relation _ | .clearRelation _ relation => [relation]
  | .find _ _ | .deleteOf _ | .on _ => []

/-- The role that a request may make an entry of. -/
def grantee : EntryRequest → Option RoleId
  | .addPermission _ role _ => some role
  | _ => none

/-- A request about objects as `Object.of?` makes them, with keys that are not blank, without U+0000
in a text, and for a role that is stored. -/
structure Proper (roles : List RoleRow) (request : EntryRequest) : Prop where
  filled : ∀ object ∈ request.objects, allBlank object.key = false
  keys : ∀ object ∈ request.objects, Database.hasNul object.key = false
  texts : ∀ text ∈ request.texts, Database.hasNul text = false
  known : ∀ role ∈ request.grantee, ∃ row ∈ roles, row.id = role

instance (roles : List RoleRow) (request : EntryRequest) : Decidable (request.Proper roles) :=
  decidable_of_iff
    ((∀ object ∈ request.objects, allBlank object.key = false) ∧
      (∀ object ∈ request.objects, Database.hasNul object.key = false) ∧
      (∀ text ∈ request.texts, Database.hasNul text = false) ∧
      ∀ role ∈ request.grantee, ∃ row ∈ roles, row.id = role)
    ⟨fun ⟨filled, keys, texts, known⟩ => ⟨filled, keys, texts, known⟩,
      fun ⟨filled, keys, texts, known⟩ => ⟨filled, keys, texts, known⟩⟩

end EntryRequest

/-! ### Linked stores -/

/-- The stores hold the same entries and relations, and the tables are all in place. -/
structure Linked (roles : List RoleRow) (m : Memory) (db : Database) : Prop where
  roles : db.roles = roles
  away : db.away = []
  made : db.entriesMade = m.entriesMade
  entries : SameEntries m.entriesMade m.entries db.entries db.entryPermissions
  relations : SameRelations m.relations db.relations

/-- The listed permissions with one more row, unless it is among them. -/
def Database.list (db : Database) (row : EntryPermissionRow) : Database :=
  if db.entryPermissions.contains row then db
  else { db with entryPermissions := db.entryPermissions ++ [row] }

theorem Database.list_frame {db : Database} {row : EntryPermissionRow} :
    db.list row = { db with entryPermissions := (db.list row).entryPermissions } := by
  unfold list
  split <;> rfl

theorem Database.mem_list {db : Database} {row row' : EntryPermissionRow} :
    row' ∈ (db.list row).entryPermissions ↔ row' ∈ db.entryPermissions ∨ row' = row := by
  unfold list
  split
  · rename_i known
    refine (or_iff_left_of_imp ?_).symm
    rintro rfl
    exact List.contains_iff_mem.mp known
  · rw [List.mem_append, List.mem_singleton]

/-- Once the entry is there, its permission is listed and the entry read back. -/
theorem Database.addPermission_of_saved {db saved : Database} {target : Object} {role : RoleId}
    {permission : Permission} {created : Bool} {row : EntryRow} {entry : Entry}
    (save : db.saveEntry target role = .ok (created, row, saved)) (away : saved.away = [])
    (text : hasNul permission.toText = false)
    (read : (saved.list ⟨row.number, permission.toText⟩).readEntry row = .ok entry) :
    db.addPermission target role permission =
      .ok (⟨if created then .created
        else if saved.entryPermissions.contains ⟨row.number, permission.toText⟩ then .unchanged
        else .edited, some entry⟩, saved.list ⟨row.number, permission.toText⟩) := by
  have still : (saved.list ⟨row.number, permission.toText⟩).away = [] := by
    rw [list_frame]
    exact away
  unfold addPermission
  rw [save]
  dsimp only [bind, Except.bind, pure, Except.pure]
  rw [send_ok away (by simpa using text)]
  dsimp only
  rw [← list, send_ok still (by simp), read]

namespace Linked

variable {roles : List RoleRow} {m : Memory} {db : Database} {target : Object} {role : RoleId}
  {permission : Permission}

theorem readEntry_ok (linked : Linked roles m db) {key : EntryKey} {entry : Entry}
    (found : m.entries.get? key = some entry) : db.readEntry (key.row entry) = .ok entry :=
  Database.readEntry_ok (linked.entries.kept key entry found) (linked.entries.lists key entry found)

theorem findEntry_eq (linked : Linked roles m db) (plain : Database.hasNul target.key = false)
    (role : RoleId) : db.findEntry target role = .ok (m.entries.get? ⟨target, role⟩) := by
  unfold Database.findEntry Database.entryRow?
  rw [Database.send_object linked.away plain (by simp), linked.entries.find?]
  cases found : m.entries.get? ⟨target, role⟩ with
  | none => rfl
  | some entry =>
    change some <$> db.readEntry (EntryKey.row ⟨target, role⟩ entry) = _
    rw [linked.readEntry_ok found]
    rfl

theorem update (linked : Linked roles m db) {key : EntryKey} {entry : Entry}
    (found : m.entries.get? key = some entry) {permissions : SortedSet Permission}
    {listed : List EntryPermissionRow} (own : Entry.ListedIn listed { entry with permissions })
    (others : ∀ row : EntryPermissionRow,
      row.entry ≠ entry.number → (row ∈ listed ↔ row ∈ db.entryPermissions)) :
    Linked roles { m with entries := m.entries.insert key { entry with permissions } }
      { db with entryPermissions := listed } :=
  { linked with entries := linked.entries.update found own others }

theorem addPermission_ok (linked : Linked roles m db) (filled : allBlank target.key = false)
    (plain : Database.hasNul target.key = false)
    (text : Database.hasNul permission.toText = false) (known : ∃ row ∈ roles, row.id = role) :
    ∃ db', db.addPermission target role permission =
        .ok ((m.addPermission target role permission).1, db') ∧
      Linked roles (m.addPermission target role permission).2 db' := by
  have sent := Database.send_object linked.away plain (List.forall_mem_nil _)
  cases found : m.entries.get? ⟨target, role⟩ with
  | some entry =>
    have own := linked.entries.lists _ _ found
    let row := EntryKey.row ⟨target, role⟩ entry
    have save : db.saveEntry target role = .ok (false, row, db) := by
      unfold Database.saveEntry Database.entryRow?
      rw [sent, linked.entries.find?, found]
      rfl
    have after : Linked roles
        { m with entries := m.entries.insert ⟨target, role⟩ (entry.add permission) }
        (db.list ⟨row.number, permission.toText⟩) := by
      rw [Database.list_frame]
      refine linked.update found (own.add permission fun _ => Database.mem_list) fun row other => ?_
      rw [Database.mem_list, or_iff_left]
      rintro rfl
      exact other rfl
    have read := after.readEntry_ok (SortedMap.get?_insert_self ..)
    have listed : db.entryPermissions.contains ⟨row.number, permission.toText⟩ =
      entry.lists permission := own.contains permission
    simp only [Memory.addPermission, found]
    refine ⟨_, ?_, after⟩
    rw [Database.addPermission_of_saved save linked.away text read, listed]
    rfl
  | none =>
    let entry : Entry :=
      ⟨.numbered (m.entriesMade + 1), target, role, SortedSet.insert ∅ permission⟩
    let row := EntryKey.row ⟨target, role⟩ entry
    let saved : Database :=
      { db with entries := db.entries ++ [row], entriesMade := m.entriesMade + 1 }
    have save : db.saveEntry target role = .ok (true, row, saved) := by
      have stored : db.hasRole role = true := by
        obtain ⟨row, mem, same⟩ := known
        rw [Database.hasRole, linked.roles, List.any_eq_true]
        exact ⟨row, mem, beq_iff_eq.mpr same⟩
      unfold Database.saveEntry Database.entryRow?
      rw [sent, linked.entries.find?, found, stored, linked.made]
      rfl
    -- no row has the number yet, so none is left out
    have fresh : saved.list ⟨row.number, permission.toText⟩ =
        { saved with
          entryPermissions := db.entryPermissions ++ [⟨row.number, permission.toText⟩] } := by
      refine if_neg fun listed => ?_
      have bound := linked.entries.past _ (List.contains_iff_mem.mp listed)
      exact absurd bound (Nat.not_succ_le_self _)
    have after : Linked roles
        { m with
          entries := m.entries.insert ⟨target, role⟩ entry, entriesMade := m.entriesMade + 1 }
        (saved.list ⟨row.number, permission.toText⟩) := by
      rw [fresh]
      exact ⟨linked.roles, linked.away, rfl, linked.entries.create found filled permission,
        linked.relations⟩
    have read := after.readEntry_ok (SortedMap.get?_insert_self ..)
    simp only [Memory.addPermission, found]
    exact ⟨_, Database.addPermission_of_saved save linked.away text read, after⟩

theorem keep (linked : Linked roles m db) {keep : EntryKey → Bool} {keepRow : EntryRow → Bool}
    (picks : ∀ key entry, m.entries.get? key = some entry → keepRow (key.row entry) = keep key) :
    Linked roles { m with entries := m.entries.filter fun key _ => keep key }
      (db.keepEntries keepRow) :=
  { linked with entries := linked.entries.keep picks }

/-- Without the entry of a row no entry has its number. -/
theorem drop (linked : Linked roles m db) {key : EntryKey} {entry : Entry}
    (found : m.entries.get? key = some entry) :
    Linked roles { m with entries := m.entries.erase key }
      (db.keepEntries (·.number ≠ (key.row entry).number)) := by
  apply linked.keep
  intro key' entry' found'
  rw [Bool.eq_iff_iff, decide_eq_true_iff, bne_iff_ne, not_iff_not,
    Std.LawfulEqOrd.compare_eq_iff_eq]
  constructor
  · intro numbers
    exact (linked.entries.apart _ _ _ _ found' found numbers).symm
  · rintro rfl
    rw [found] at found'
    cases found'
    rfl

theorem removePermission_ok (linked : Linked roles m db)
    (plain : Database.hasNul target.key = false) (role : RoleId)
    (text : Database.hasNul permission.toText = false) :
    ∃ db', db.removePermission target role permission =
        .ok ((m.removePermission target role permission).1, db') ∧
      Linked roles (m.removePermission target role permission).2 db' := by
  unfold Database.removePermission Database.entryRow?
  rw [Database.send_object linked.away plain (by simp), linked.entries.find?]
  cases found : m.entries.get? ⟨target, role⟩ with
  | none =>
    simp only [Memory.removePermission, found]
    exact ⟨db, rfl, linked⟩
  | some entry =>
    have own := linked.entries.lists _ _ found
    let row := EntryKey.row ⟨target, role⟩ entry
    let listed : EntryPermissionRow := ⟨row.number, permission.toText⟩
    let db' : Database := { db with entryPermissions := db.entryPermissions.filter (· ≠ listed) }
    have mem (other : EntryPermissionRow) :
        other ∈ db'.entryPermissions ↔ other ∈ db.entryPermissions ∧ other ≠ listed := by
      rw [List.mem_filter, decide_eq_true_iff]
    have after : Linked roles
        { m with entries := m.entries.insert ⟨target, role⟩ (entry.remove permission) } db' := by
      refine linked.update found (own.remove permission mem) fun other apart => ?_
      rw [mem, and_iff_left]
      rintro rfl
      exact apart rfl
    have back := SortedMap.get?_insert_self m.entries ⟨target, role⟩ (entry.remove permission)
    have read : db'.readEntry row = .ok (entry.remove permission) := after.readEntry_ok back
    have known : db.entryPermissions.contains listed = entry.lists permission :=
      own.contains permission
    dsimp only [Option.map_some, bind, Except.bind, pure, Except.pure]
    rw [Database.send_ok linked.away (by simpa using text)]
    dsimp only
    rw [Database.send_ok after.away (by simp), Database.send_ok after.away (by simp), read, known]
    simp only [Memory.removePermission, found]
    cases lists : entry.lists permission with
    | false =>
      -- what is not listed is not missed: `after` is about the entry as it was
      have apart : permission ∉ entry.permissions := Bool.eq_false_iff.mp lists
      have same : entry.remove permission = entry := by
        rw [Entry.remove, SortedSet.erase_of_not_mem apart]
      rw [same, SortedMap.insert_of_get? found] at after
      rw [same]
      exact ⟨db', rfl, after⟩
    | true =>
      cases emptied : (entry.remove permission).permissions.isEmpty with
      | false => exact ⟨db', rfl, after⟩
      | true =>
        have dropped := after.drop back
        rw [SortedMap.erase_insert] at dropped
        exact ⟨_, rfl, dropped⟩

theorem deleteEntriesOf_ok (linked : Linked roles m db) (id : RoleId) :
    ∃ db', db.deleteEntriesOf id = .ok ((m.deleteEntriesOf id).1, db') ∧
      Linked roles (m.deleteEntriesOf id).2 db' := by
  have counted : (db.entries.filter (·.role == id)).length = (m.deleteEntriesOf id).1 := by
    have own := linked.entries.tabulated.filter (fun key _ => key.role == id) (·.role == id)
      fun _ _ _ => rfl
    rw [List.Perm.length_eq own, List.length_map]
    rfl
  refine ⟨db.keepEntries (·.role ≠ id), ?_, linked.keep fun _ _ _ => rfl⟩
  unfold Database.deleteEntriesOf
  rw [Database.send_ok linked.away (by simp), ← counted]
  rfl

theorem entriesOn_ok (linked : Linked roles m db) (plain : Database.hasNul target.key = false) :
    ∃ listed, db.entriesOn target = .ok listed ∧ (m.entriesOn target).Perm listed := by
  have own := linked.entries.tabulated.filter (fun key _ => key.target == target)
    (·.isOn target) fun key entry _ => by
      rw [Bool.eq_iff_iff, EntryKey.row_isOn, beq_iff_eq]
  obtain ⟨listed, ran, perm⟩ := own.read_perm db.readEntry fun key entry found => by
    rw [SortedMap.get?_filter, Option.filter_eq_some_iff] at found
    exact linked.readEntry_ok found.1
  rw [SortedMap.values_filter (·.target == target) fun key entry found => by
    rw [(linked.entries.kept key entry found).target]] at perm
  refine ⟨listed, ?_, perm.symm⟩
  unfold Database.entriesOn
  rw [Database.send_object linked.away plain (by simp)]
  exact ran

theorem grantedObjects_eq (linked : Linked roles m db)
    (text : Database.hasNul permission.toText = false) (ids : List RoleId) :
    db.grantedObjects ids permission = .ok (m.grantedObjects ids permission) := by
  let rows := sortOn (fun row : EntryRow => [row.model, row.key]) (db.entries.filter fun row =>
    ids.contains row.role && db.entryPermissions.contains ⟨row.number, permission.toText⟩)
  have picked (row : EntryRow) : row ∈ rows ↔ ∃ key entry, m.entries.get? key = some entry ∧
      key.row entry = row ∧ key.role ∈ ids ∧ entry.lists permission = true := by
    rw [mem_sortOn, List.mem_filter, linked.entries.tabulated.mem_iff, Bool.and_eq_true,
      List.contains_iff_mem]
    constructor
    · rintro ⟨⟨key, entry, found, rfl⟩, mem, listed⟩
      refine ⟨key, entry, found, rfl, mem, ?_⟩
      rw [← (linked.entries.lists key entry found).contains]
      exact listed
    · rintro ⟨key, entry, found, rfl, mem, listed⟩
      refine ⟨⟨key, entry, found, rfl⟩, mem, ?_⟩
      rw [← (linked.entries.lists key entry found).contains] at listed
      exact listed
  have read {key : EntryKey} {entry : Entry} (found : m.entries.get? key = some entry) :
      decodeObject (key.row entry).model (key.row entry).key = .ok key.target :=
    decodeObject_toText (linked.entries.kept key entry found).filled
  have each : ∀ row ∈ rows, ∃ object, decodeObject row.model row.key = .ok object := by
    intro row mem
    obtain ⟨key, entry, found, rfl, _⟩ := (picked row).mp mem
    exact ⟨key.target, read found⟩
  obtain ⟨objects, ran, results⟩ := mapM_total each
  have same : SortedSet.ofList objects = m.grantedObjects ids permission := by
    refine SortedSet.ext fun object => ?_
    rw [SortedSet.mem_ofList, results, Memory.mem_grantedObjects]
    constructor
    · rintro ⟨row, mem, back⟩
      obtain ⟨key, entry, found, rfl, mem, listed⟩ := (picked row).mp mem
      rw [read found] at back
      cases back
      have kept := linked.entries.kept key entry found
      rw [← kept.role] at mem
      exact ⟨entry, SortedMap.mem_values_iff.mpr ⟨key, found⟩, mem, listed, kept.target⟩
    · rintro ⟨entry, stored, mem, listed, rfl⟩
      obtain ⟨key, found⟩ := SortedMap.mem_values_iff.mp stored
      have kept := linked.entries.kept key entry found
      rw [kept.role] at mem
      rw [kept.target]
      exact ⟨_, (picked _).mpr ⟨key, entry, found, rfl, mem, listed⟩, read found⟩
  unfold Database.grantedObjects
  rw [Database.send_ok linked.away (by simpa using text)]
  dsimp only [bind, Except.bind, pure, Except.pure]
  rw [ran, ← same]

theorem related_eq (linked : Linked roles m db) {object : Object} {relation : String}
    (plain : Database.hasNul object.key = false) (text : Database.hasNul relation = false) :
    db.related object relation = .ok (m.relations.get? ⟨object, relation⟩) := by
  unfold Database.related
  rw [Database.send_object linked.away plain (by simpa using text), linked.relations.find?]
  cases found : m.relations.get? ⟨object, relation⟩ with
  | none => rfl
  | some parent =>
    have read := decodeObject_toText (linked.relations.filled _ _ found)
    change some <$> decodeObject parent.model.toText parent.key = _
    rw [read]
    rfl

theorem clearRelation_ok (linked : Linked roles m db) {child : Object} {relation : String}
    (plain : Database.hasNul child.key = false) (text : Database.hasNul relation = false) :
    ∃ db', db.clearRelation child relation = .ok db' ∧
      Linked roles (m.clearRelation child relation) db' := by
  refine ⟨{ db with relations := db.relations.filter (! ·.isOf child relation) }, ?_,
    { linked with relations := linked.relations.clear child relation }⟩
  unfold Database.clearRelation
  rw [Database.send_object linked.away plain (by simpa using text)]
  rfl

theorem setRelation_agree (linked : Linked roles m db) {child parent : Object} {relation : String}
    (filled : allBlank parent.key = false) (plain : Database.hasNul child.key = false)
    (plain' : Database.hasNul parent.key = false) (text : Database.hasNul relation = false) :
    Alike Eq (Linked roles) (m.setRelation child relation parent)
      (db.setRelation child relation parent) := by
  have reached : reaches db.links (parent.model.toText, parent.key) (child.model.toText, child.key) =
      reaches m.links parent child := linked.relations.reaches_links parent child
  unfold Database.setRelation Memory.setRelation
  dsimp only [bind, Except.bind, pure, Except.pure]
  rw [reached]
  rw [Database.send_object linked.away plain (by simp [plain', Model.hasNul_toText])]
  dsimp only
  cases reaches m.links parent child with
  | true => exact .error rfl
  | false =>
    rw [Database.send_object linked.away plain (by simp [plain', text, Model.hasNul_toText])]
    exact .ok { linked with relations := linked.relations.set child relation filled }

end Linked

/-! ### Answers -/

theorem Linked.agree {roles : List RoleRow} {m : Memory} {db : Database} {request : EntryRequest}
    (linked : Linked roles m db) (proper : request.Proper roles) :
    Agree Eq EntryReply.Same (Linked roles) (request.ask m) (request.ask db) := by
  obtain ⟨filled, keys, texts, known⟩ := proper
  unfold EntryRequest.ask
  cases request with
  | find target role =>
    simp only [EntryRequest.objects, List.forall_mem_singleton] at keys
    refine Alike.map (alike_of_eq (linked.findEntry_eq keys role)) fun _ _ same => ?_
    exact ⟨congrArg EntryReply.entry same, linked⟩
  | addPermission target role permission =>
    simp only [EntryRequest.objects, EntryRequest.texts, List.forall_mem_singleton]
      at filled keys texts
    have added := linked.addPermission_ok filled keys texts (known role rfl)
    refine Alike.map (agree_of_ok added) fun _ _ both => ?_
    exact ⟨congrArg EntryReply.outcome both.1, both.2⟩
  | removePermission target role permission =>
    simp only [EntryRequest.objects, EntryRequest.texts, List.forall_mem_singleton] at keys texts
    refine Alike.map (agree_of_ok (linked.removePermission_ok keys role texts)) fun _ _ both => ?_
    exact ⟨congrArg EntryReply.outcome both.1, both.2⟩
  | deleteOf id =>
    refine Alike.map (agree_of_ok (linked.deleteEntriesOf_ok id)) fun _ _ both => ?_
    exact ⟨congrArg EntryReply.count both.1, both.2⟩
  | on target =>
    simp only [EntryRequest.objects, List.forall_mem_singleton] at keys
    refine Alike.map (alike_of_ok (linked.entriesOn_ok keys)) fun _ _ perm => ?_
    exact ⟨perm, linked⟩
  | granted ids permission =>
    simp only [EntryRequest.texts, List.forall_mem_singleton] at texts
    refine Alike.map (alike_of_eq (linked.grantedObjects_eq texts ids)) fun _ _ same => ?_
    exact ⟨congrArg EntryReply.objects same, linked⟩
  | related object relation =>
    simp only [EntryRequest.objects, EntryRequest.texts, List.forall_mem_singleton] at keys texts
    refine Alike.map (alike_of_eq (linked.related_eq keys texts)) fun _ _ same => ?_
    exact ⟨congrArg EntryReply.object same, linked⟩
  | setRelation child relation parent =>
    simp only [EntryRequest.objects, EntryRequest.texts, List.forall_mem_cons] at filled keys texts
    have set := linked.setRelation_agree filled.2.1 keys.1 keys.2.1 texts.1
    exact set.map fun _ _ after => ⟨rfl, after⟩
  | clearRelation child relation =>
    simp only [EntryRequest.objects, EntryRequest.texts, List.forall_mem_singleton] at keys texts
    refine Alike.map (alike_of_ok (linked.clearRelation_ok keys texts)) fun _ _ after => ?_
    exact ⟨rfl, after⟩

/-- Whatever a store in memory and a relational store without entries and relations are asked about
these, they answer the same, however many roles, members and events they hold. -/
theorem entry_answers_alike (roles : SortedMap RoleId Role)
    (members : SortedMap String (SortedSet String)) (events : List AuditEntry)
    (roleRows : List RoleRow) (rolePermissions : List RolePermissionRow) (roleGroups : List RoleGroupRow)
    (memberRows : List MemberRow) (eventRows : List AuditEntry) (requests : List EntryRequest)
    (proper : ∀ request ∈ requests, request.Proper roleRows) :
    List.Forall₂ (Alike Eq EntryReply.Same)
      (answers EntryRequest.ask ({ roles, members, events } : Memory) requests)
      (answers EntryRequest.ask
        ({ roles := roleRows, rolePermissions, roleGroups, members := memberRows,
           events := eventRows } : Database) requests) := by
  have start : Linked roleRows ({ roles, members, events } : Memory)
      ({ roles := roleRows, rolePermissions, roleGroups, members := memberRows,
         events := eventRows } : Database) := ⟨rfl, rfl, rfl, .empty 0, .empty⟩
  exact alike_answers (fun _ _ _ linked proper _ => linked.agree proper) start proper
    (throughout_of_always (fun _ _ => True) (fun _ _ => trivial) _ _)

namespace Sample

/-- Files a document in a folder, asks about it and takes it back; a relation the other way is
refused. -/
def shelving : List EntryRequest := [
  .addPermission ⟨folder, "f"⟩ reader view,
  .setRelation ⟨document, "d"⟩ "folder" ⟨folder, "f"⟩,
  .setRelation ⟨folder, "f"⟩ "cover" ⟨document, "d"⟩,
  .on ⟨folder, "f"⟩,
  .granted [reader] view,
  .related ⟨document, "d"⟩ "folder",
  .removePermission ⟨folder, "f"⟩ reader view]

end Sample

open Sample in
theorem entry_answers_alike_when_shelving :
    (∀ request ∈ shelving, request.Proper [⟨reader, "reader"⟩]) ∧
    List.Forall₂ (Alike Eq EntryReply.Same) (answers EntryRequest.ask (∅ : Memory) shelving)
      (answers EntryRequest.ask ({ roles := [⟨reader, "reader"⟩] } : Database) shelving) := by
  have proper : ∀ request ∈ shelving, request.Proper [⟨reader, "reader"⟩] := by decide +kernel
  exact ⟨proper, entry_answers_alike ∅ ∅ [] [⟨reader, "reader"⟩] [] [] [] [] shelving proper⟩

end Entitlement
