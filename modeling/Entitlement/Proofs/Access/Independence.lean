import Entitlement.Proofs.Access.Restriction
import Entitlement.Proofs.Administration.Integrity
import Entitlement.Proofs.Store.RoleTables

/-!
# Roles of others

What a user gets rests on the roles that the user holds, their entries and the relations
(`Memory.AlikeFor`). Calls and changes that are about roles of others leave these alone, so they make no
difference to what the user gets, however many there are (`Site.unaffected_by_others`).
-/

namespace Entitlement

namespace Memory

def held (m : Memory) (subject : String) : List RoleId := (m.rolesOf subject).map (·.id)

/-- The subject has the same roles by both stores, these have the same entries, and relations are the
same. -/
structure AlikeFor (subject : String) (m m' : Memory) : Prop where
  rolesOf : m'.rolesOf subject = m.rolesOf subject
  entries : ∀ key, key.role ∈ m.held subject → m'.entries.get? key = m.entries.get? key
  relations : m'.relations = m.relations

variable {m m' m'' : Memory} {subject : String} {id : RoleId}

theorem AlikeFor.refl (m : Memory) : AlikeFor subject m m := ⟨rfl, fun _ _ => rfl, rfl⟩

theorem AlikeFor.held (alike : AlikeFor subject m m') : m'.held subject = m.held subject := by
  rw [Memory.held, Memory.held, alike.rolesOf]

theorem AlikeFor.trans (first : AlikeFor subject m m') (second : AlikeFor subject m' m'') :
    AlikeFor subject m m'' where
  rolesOf := second.rolesOf.trans first.rolesOf
  entries key mine := by
    rw [second.entries key (first.held ▸ mine), first.entries key mine]
  relations := second.relations.trans first.relations

/-! ### Roles -/

theorem isHeldBy_iff {role : Role} :
    m.isHeldBy role subject = true ↔ ∃ group ∈ role.groups, subject ∈ m.group group := by
  rw [isHeldBy, List.any_eq_true]
  exact exists_congr fun group => and_congr_left fun _ => SortedSet.mem_toList_iff

theorem isHeldBy_congr (same : ∀ group, subject ∈ m'.group group ↔ subject ∈ m.group group)
    (role : Role) : m'.isHeldBy role subject = m.isHeldBy role subject := by
  rw [Bool.eq_iff_iff, isHeldBy_iff, isHeldBy_iff]
  exact exists_congr fun group => and_congr_right fun _ => same group

theorem rolesOf_congr (same : ∀ id, (m'.roles.get? id).filter (m'.isHeldBy · subject) =
    (m.roles.get? id).filter (m.isHeldBy · subject)) : m'.rolesOf subject = m.rolesOf subject := by
  have kept : (m'.roles.filter fun _ role => m'.isHeldBy role subject) =
      m.roles.filter fun _ role => m.isHeldBy role subject := by
    refine SortedMap.ext fun id => ?_
    rw [SortedMap.get?_filter, SortedMap.get?_filter]
    exact same id
  have values := congrArg SortedMap.values kept
  rw [SortedMap.values_filter (m'.isHeldBy · subject) fun _ _ _ => rfl,
    SortedMap.values_filter (m.isHeldBy · subject) fun _ _ _ => rfl] at values
  rw [rolesOf, rolesOf, values]

theorem not_isHeldBy (keyed : m.Keyed) (unheld : id ∉ m.held subject) {role : Role}
    (found : m.roles.get? id = some role) : m.isHeldBy role subject = false := by
  refine Bool.eq_false_iff.mpr fun holds => unheld ?_
  have mem : role ∈ m.rolesOf subject :=
    mem_rolesOf.mpr ⟨SortedMap.mem_values_iff.mpr ⟨id, found⟩, isHeldBy_iff.mp holds⟩
  exact List.mem_map.mpr ⟨role, mem, keyed.roles id role found⟩

/-- One role that the subject does not hold may become another such, or come or go. -/
theorem rolesOf_of_unheld (keyed : m.Keyed) (unheld : id ∉ m.held subject)
    (members : m'.members = m.members)
    (others : ∀ other, other ≠ id → m'.roles.get? other = m.roles.get? other)
    (own : ∀ role, m'.roles.get? id = some role → m.isHeldBy role subject = false) :
    m'.rolesOf subject = m.rolesOf subject := by
  have same : ∀ role, m'.isHeldBy role subject = m.isHeldBy role subject := by
    refine isHeldBy_congr fun name => ?_
    rw [group, group, members]
  refine rolesOf_congr fun other => ?_
  rw [funext same]
  by_cases here : other = id
  · rw [here, Option.filter_eq_none_iff.mpr, Option.filter_eq_none_iff.mpr]
    · exact fun role found => ne_true_of_eq_false (not_isHeldBy keyed unheld found)
    · exact fun role found => ne_true_of_eq_false (own role found)
  · rw [others other here]

theorem edit_unheld {role : Role} {edit normal : RoleEdit} (keeps : ∀ group, edit ≠ .attach group)
    (read : edit.normal = .ok normal) (unheld : m.isHeldBy role subject = false) :
    m.isHeldBy (role.edit normal) subject = false := by
  have fewer : ∀ group ∈ (role.edit normal).groups, group ∈ role.groups := by
    cases edit with
    | grant permission | revoke permission =>
      cases read
      exact fun group mem => mem
    | attach group => exact absurd rfl (keeps group)
    | detach group =>
      cases read
      exact fun other mem => (SortedSet.mem_erase.mp mem).2
  refine Bool.eq_false_iff.mpr fun holds => ?_
  obtain ⟨group, attached, member⟩ := isHeldBy_iff.mp holds
  have before := isHeldBy_iff.mpr ⟨group, fewer group attached, member⟩
  rw [unheld] at before
  cases before

/-! ### Entries -/

theorem addPermission_other {target : Object} {permission : Permission} {key : EntryKey}
    (other : key ≠ ⟨target, id⟩) :
    (m.addPermission target id permission).2.entries.get? key = m.entries.get? key := by
  rcases addPermission_cases m target id permission with
    ⟨_, _, ran⟩ | ⟨entry, _, ran⟩ | ⟨_, entry, _, ran⟩
  · rw [ran]
  · rw [ran, SortedMap.get?_insert_of_ne _ other]
  · rw [ran, SortedMap.get?_insert_of_ne _ other]

theorem removePermission_other {target : Object} {permission : Permission} {key : EntryKey}
    (other : key ≠ ⟨target, id⟩) :
    (m.removePermission target id permission).2.entries.get? key = m.entries.get? key := by
  rcases removePermission_cases m target id permission with ⟨_, ran⟩ | ⟨entry, _, ran⟩ | ⟨entry, _, ran⟩
  · rw [ran]
  · rw [ran, SortedMap.get?_insert_of_ne _ other]
  · rw [ran, SortedMap.get?_erase_of_ne _ other]

theorem entriesWithout_other {key : EntryKey} (other : key.role ≠ id) :
    (m.entriesWithout id).get? key = m.entries.get? key := by
  refine Option.ext fun entry => ?_
  rw [entriesWithout_eq_some, and_iff_left other]

end Memory

/-! ### Changes -/

/-- The change is about no role that the subject holds, gives no role to a group, and leaves the subject
in its groups and relations alone. -/
def Change.Apart (m : Memory) (subject : String) : Change → Prop
  | .createRole role => role.id ∉ m.held subject ∧ role.groups = ∅
  | .editRole id edit => id ∉ m.held subject ∧ ∀ group, edit ≠ .attach group
  | .deleteRole id | .deleteEntriesOf id => id ∉ m.held subject
  | .addPermission _ id _ | .removePermission _ id _ => id ∉ m.held subject
  | .addMember _ other | .removeMember _ other => other ≠ subject
  | .setRelation _ _ _ | .clearRelation _ _ => False
  | .record _ => True

/-- Each of the changes is about others when its turn comes. -/
def Change.AllApart (m : Memory) (subject : String) : List Change → Prop
  | [] => True
  | change :: rest =>
    change.Apart m subject ∧ ∀ m', change.serve m = .ok m' → AllApart m' subject rest

namespace Memory

variable {m m' : Memory} {subject : String} {id : RoleId}

theorem AlikeFor.of_roles (roles : m'.roles = m.roles)
    (members : ∀ group, subject ∈ m'.group group ↔ subject ∈ m.group group)
    (entries : ∀ key, key.role ∈ m.held subject → m'.entries.get? key = m.entries.get? key)
    (relations : m'.relations = m.relations) : AlikeFor subject m m' where
  rolesOf := rolesOf_congr fun id => by rw [funext (isHeldBy_congr members), roles]
  entries := entries
  relations := relations

theorem serve_alikeFor (keyed : m.Keyed) {change : Change} (apart : change.Apart m subject)
    (served : change.serve m = .ok m') : AlikeFor subject m m' := by
  cases change with
  | createRole role =>
    obtain ⟨unheld, bare⟩ := apart
    obtain ⟨_, rfl⟩ := createRole_ok_iff.mp served
    refine ⟨rolesOf_of_unheld keyed unheld rfl ?_ ?_, fun _ _ => rfl, rfl⟩
    · intro other differs
      exact SortedMap.get?_insert_of_ne _ differs _
    · intro created found
      cases (SortedMap.get?_insert_self ..).symm.trans found
      refine Bool.eq_false_iff.mpr fun holds => ?_
      obtain ⟨group, attached, _⟩ := isHeldBy_iff.mp holds
      rw [bare] at attached
      exact SortedSet.not_mem_empty group attached
  | editRole id edit =>
    obtain ⟨unheld, keeps⟩ := apart
    obtain ⟨⟨_, _⟩, edited, rfl⟩ := map_ok served
    obtain ⟨role, normal, found, read, _, rfl⟩ := editRole_ok edited
    refine ⟨rolesOf_of_unheld keyed unheld rfl ?_ ?_, fun _ _ => rfl, rfl⟩
    · intro other differs
      exact SortedMap.get?_insert_of_ne _ differs _
    · intro now found'
      cases (SortedMap.get?_insert_self ..).symm.trans found'
      exact edit_unheld keeps read (not_isHeldBy keyed unheld found)
  | deleteRole id =>
    cases served
    refine ⟨rolesOf_of_unheld keyed apart rfl ?_ ?_, ?_, rfl⟩
    · intro other differs
      exact SortedMap.get?_erase_of_ne _ differs
    · intro role found
      cases (SortedMap.get?_erase_self ..).symm.trans found
    · intro key mine
      exact entriesWithout_other fun same => apart (same ▸ mine)
  | deleteEntriesOf id =>
    cases served
    refine .of_roles rfl (fun _ => Iff.rfl) (fun key mine => ?_) rfl
    exact entriesWithout_other fun same => apart (same ▸ mine)
  | addPermission target id permission =>
    have same : (m.addPermission target id permission).2 = m' := Except.ok.inj served
    rw [← same, addPermission_frame]
    refine .of_roles rfl (fun _ => Iff.rfl) (fun key mine => addPermission_other ?_) rfl
    rintro rfl
    exact apart mine
  | removePermission target id permission =>
    have same : (m.removePermission target id permission).2 = m' := Except.ok.inj served
    rw [← same, removePermission_frame]
    refine .of_roles rfl (fun _ => Iff.rfl) (fun key mine => removePermission_other ?_) rfl
    rintro rfl
    exact apart mine
  | addMember group other =>
    cases served
    refine .of_roles rfl (fun name => ?_) (fun _ _ => rfl) rfl
    rw [mem_group_addMember, or_iff_right fun here => apart here.2.symm]
  | removeMember group other =>
    cases served
    refine .of_roles rfl (fun name => ?_) (fun _ _ => rfl) rfl
    rw [mem_group_removeMember, and_iff_left fun here => apart here.2.symm]
  | setRelation | clearRelation => exact apart.elim
  | record event =>
    cases served
    exact .of_roles rfl (fun _ => Iff.rfl) (fun _ _ => rfl) rfl

theorem serveAll_alikeFor (keyed : m.Keyed) {changes : List Change}
    (apart : Change.AllApart m subject changes) (served : Change.serveAll m changes = .ok m') :
    AlikeFor subject m m' ∧ m'.Keyed := by
  induction changes generalizing m with
  | nil =>
    cases served
    exact ⟨.refl _, keyed⟩
  | cons change rest ih =>
    obtain ⟨next, first, others⟩ := Change.serveAll_cons_ok.mp served
    obtain ⟨alike, keyed'⟩ := ih (serve_keyed keyed first) (apart.2 next first) others
    exact ⟨(serve_alikeFor keyed apart.1 first).trans alike, keyed'⟩

/-! ### Reads -/

theorem AlikeFor.mem_entries (alike : AlikeFor subject m m') (keyed : m.Keyed) (keyed' : m'.Keyed)
    {entry : Entry} (mine : entry.role ∈ m.held subject) :
    entry ∈ m'.entries.values ↔ entry ∈ m.entries.values := by
  rw [SortedMap.mem_values_iff, SortedMap.mem_values_iff]
  constructor
  · rintro ⟨key, found⟩
    rw [(keyed'.entries key entry found).2] at mine
    exact ⟨key, (alike.entries key mine).symm.trans found⟩
  · rintro ⟨key, found⟩
    rw [(keyed.entries key entry found).2] at mine
    exact ⟨key, (alike.entries key mine).trans found⟩

theorem AlikeFor.grantedObjects (alike : AlikeFor subject m m') (keyed : m.Keyed)
    (keyed' : m'.Keyed) (permission : Permission) :
    m'.grantedObjects (m.held subject) permission = m.grantedObjects (m.held subject) permission := by
  refine SortedSet.ext fun object => ?_
  rw [mem_grantedObjects, mem_grantedObjects]
  constructor
  · rintro ⟨entry, stored, mine, lists⟩
    exact ⟨entry, (alike.mem_entries keyed keyed' mine).mp stored, mine, lists⟩
  · rintro ⟨entry, stored, mine, lists⟩
    exact ⟨entry, (alike.mem_entries keyed keyed' mine).mpr stored, mine, lists⟩

end Memory

/-! ### Calls -/

/-- The operation is about no role that the subject holds, and neither about the subject nor about what
groups have or relations lead to. A role is created under an identifier of none of the subject's roles,
as a fresh one is. -/
def Operation.Apart (site : Site Memory) (subject : String) : Operation → Prop
  | .createRole _ given => given.getD (Uuid.drawn (site.rolesDrawn + 1)) ∉ site.store.held subject
  | .deleteRole id | .grantToRole id _ | .revokeFromRole id _ | .detachGroup id _ =>
    id ∉ site.store.held subject
  | .grant _ _ id | .revoke _ _ id => id ∉ site.store.held subject
  | .addMember _ other | .removeMember _ other => Text.trim other ≠ subject
  | .attachGroup _ _ | .setRelation _ _ _ | .clearRelation _ _ => False
  -- The others only read.
  | _ => True

namespace Site

def Call.Apart (site : Site Memory) (subject : String) : Call → Prop
  | .perform _ operation => operation.Apart site subject
  | .grant _ _ id | .revoke _ _ id => id ∉ site.store.held subject

/-- What a site may go through: a call, or a change that its store is asked for by other means. -/
inductive Turn where
  | ofCall (call : Call)
  | ofChange (change : Change)

/-- The site after a turn, whether or not it succeeded. -/
def afterTurn (site : Site Memory) : Turn → Site Memory
  | .ofCall call => site.afterCall call
  | .ofChange change => { site with store := Change.run site.store [change] }

def afterTurns (site : Site Memory) (turns : List Turn) : Site Memory := turns.foldl afterTurn site

def Turn.Apart (site : Site Memory) (subject : String) : Turn → Prop
  | .ofCall call => call.Apart site subject
  | .ofChange change => change.Apart site.store subject

/-- Each of the turns is about others when it comes. -/
def AllApart (site : Site Memory) (subject : String) : List Turn → Prop
  | [] => True
  | turn :: rest => turn.Apart site subject ∧ (site.afterTurn turn).AllApart subject rest

/-- What the subject's access rests on is the same. -/
structure AlikeFor (subject : String) (site after : Site Memory) : Prop where
  registry : after.registry = site.registry
  pinned : after.pinned = site.pinned
  store : Memory.AlikeFor subject site.store after.store

variable {site after : Site Memory} {subject : String} {user : User} {permission : Permission}

theorem Effects.apart {actor : User} {operation : Operation} {changes : List Change}
    (effects : site.Effects actor operation changes) (apart : operation.Apart site subject) :
    Change.AllApart site.store subject changes := by
  cases effects with
  | createRole _ _ named =>
    subst named
    exact ⟨⟨apart, rfl⟩, fun _ _ => ⟨trivial, fun _ _ => trivial⟩⟩
  | deleteRole =>
    refine ⟨apart, fun m served => ?_⟩
    cases served
    exact ⟨apart, fun _ _ => ⟨trivial, fun _ _ => trivial⟩⟩
  | editRole edits =>
    refine ⟨?_, fun _ _ => ⟨trivial, fun _ _ => trivial⟩⟩
    cases edits with
    | grant | revoke | detach => exact ⟨apart, by simp⟩
    | attach => exact apart.elim
  | addMember _ read | removeMember _ read =>
    exact ⟨(membership_ok read).2.2 ▸ apart, fun _ _ => ⟨trivial, fun _ _ => trivial⟩⟩
  | grant | revoke => exact ⟨apart, fun _ _ => ⟨trivial, fun _ _ => trivial⟩⟩
  | setRelation | clearRelation => exact apart.elim

theorem Asks.apart {call : Call} {changes : List Change} (asks : site.Asks call changes)
    (apart : call.Apart site subject) : Change.AllApart site.store subject changes := by
  cases asks with
  | perform effects => exact effects.apart apart
  | grant | revoke => exact ⟨apart, fun _ _ => trivial⟩

theorem afterTurn_alikeFor (keyed : site.store.Keyed) {turn : Turn}
    (apart : turn.Apart site subject) :
    site.AlikeFor subject (site.afterTurn turn) ∧ (site.afterTurn turn).store.Keyed := by
  cases turn with
  | ofCall call =>
    rw [afterTurn]
    rcases afterCall_did site call with ⟨drawn, idle⟩ | ⟨changes, m, drawn, asks, served, same⟩
    · rw [idle]
      exact ⟨⟨rfl, rfl, .refl _⟩, keyed⟩
    · rw [same]
      obtain ⟨alike, keyed'⟩ := Memory.serveAll_alikeFor keyed (asks.apart apart) served
      exact ⟨⟨rfl, rfl, alike⟩, keyed'⟩
  | ofChange change =>
    refine ⟨⟨rfl, rfl, ?_⟩, Memory.run_keyed keyed [change]⟩
    rw [afterTurn, Change.run_cons]
    cases served : change.serve site.store with
    | error failure => exact .refl _
    | ok m => exact Memory.serve_alikeFor keyed apart served

theorem afterTurns_alikeFor (keyed : site.store.Keyed) {turns : List Turn}
    (apart : site.AllApart subject turns) :
    site.AlikeFor subject (site.afterTurns turns) ∧ (site.afterTurns turns).store.Keyed := by
  induction turns generalizing site with
  | nil => exact ⟨⟨rfl, rfl, .refl _⟩, keyed⟩
  | cons turn rest ih =>
    obtain ⟨first, keyed'⟩ := afterTurn_alikeFor keyed apart.1
    obtain ⟨others, keyed''⟩ := ih keyed' apart.2
    exact ⟨⟨others.registry.trans first.registry, others.pinned.trans first.pinned,
      first.store.trans others.store⟩, keyed''⟩

/-! ### Decisions -/

theorem AlikeFor.condition (alike : site.AlikeFor subject after) (object : Object) :
    after.condition object = site.condition object :=
  condition_congr alike.registry (relations_congr alike.pinned alike.store.relations) object

theorem AlikeFor.rolesOf (alike : site.AlikeFor user.subject after) :
    after.rolesOf user = site.rolesOf user :=
  congrArg Except.ok alike.store.rolesOf

theorem AlikeFor.grantedObjects (alike : site.AlikeFor user.subject after)
    (keyed : site.store.Keyed) (keyed' : after.store.Keyed) :
    after.grantedObjects (site.store.rolesOf user.subject) permission =
      site.grantedObjects (site.store.rolesOf user.subject) permission := by
  unfold Site.grantedObjects
  split
  · rfl
  · exact congrArg Except.ok (alike.store.grantedObjects keyed keyed' permission)

theorem AlikeFor.restrict_eq (alike : site.AlikeFor user.subject after) (keyed : site.store.Keyed)
    (keyed' : after.store.Keyed) {α : Type} (object : α → Object) (candidates : List α) :
    after.restrict permission object candidates user =
      site.restrict permission object candidates user := by
  have admits : after.admits = site.admits := by
    funext permission grants object
    unfold Site.admits requireRegistered
    rw [alike.registry, alike.condition]
  have read : site.rolesOf user = .ok (site.store.rolesOf user.subject) := rfl
  unfold restrict
  rw [alike.rolesOf, read, admits]
  simp only [bind, Except.bind, alike.grantedObjects keyed keyed']

theorem AlikeFor.explain_eq (alike : site.AlikeFor user.subject after) (keyed : site.store.Keyed)
    (keyed' : after.store.Keyed) (target : Object) :
    after.explain permission target user = site.explain permission target user := by
  have read : site.rolesOf user = .ok (site.store.rolesOf user.subject) := rfl
  unfold explain
  rw [alike.rolesOf, read, alike.condition, alike.registry]
  simp only [bind, Except.bind, alike.grantedObjects keyed keyed']

/-- Whatever is done to roles that a user does not hold and to the membership of others, and however often,
restrictions and explanations for the user come out as they did before. -/
theorem unaffected_by_others (changes : List Change) (reached : site.store = Change.run ∅ changes)
    (user : User) {turns : List Turn} (apart : site.AllApart user.subject turns) :
    (∀ {α : Type} (permission : Permission) (object : α → Object) (candidates : List α),
      (site.afterTurns turns).restrict permission object candidates user =
        site.restrict permission object candidates user) ∧
    ∀ (permission : Permission) (target : Object),
      (site.afterTurns turns).explain permission target user = site.explain permission target user := by
  have keyed : site.store.Keyed := reached ▸ Memory.run_keyed Memory.empty_keyed changes
  obtain ⟨alike, keyed'⟩ := afterTurns_alikeFor keyed apart
  exact ⟨fun _ object candidates => alike.restrict_eq keyed keyed' object candidates,
    fun _ target => alike.explain_eq keyed keyed' target⟩

end Site

namespace Sample

def guest : RoleId := Uuid.drawn 2

/-- A role for guests comes and goes, and bob with it. -/
def visit : List Site.Turn := [
  .ofCall (.perform root (.createRole "guest" (some guest))),
  .ofCall (.perform root (.addMember "staff" "bob")),
  .ofCall (.grant ⟨document, "d"⟩ view guest),
  .ofChange (.addPermission ⟨folder, "f"⟩ guest view),
  .ofCall (.perform root (.revoke ⟨document, "d"⟩ view guest)),
  .ofCall (.perform root (.deleteRole guest))]

end Sample

open Sample in
theorem Site.unaffected_by_others_in_library :
    library.AllApart "ann" visit ∧
      (library.afterTurns visit).restrict view id [⟨document, "d"⟩, ⟨document, "e"⟩] ann =
        library.restrict view id [⟨document, "d"⟩, ⟨document, "e"⟩] ann ∧
      (library.afterTurns visit).explain view ⟨document, "d"⟩ ann =
        library.explain view ⟨document, "d"⟩ ann := by
  have apart : library.AllApart ann.subject visit := by
    refine ⟨?_, ?_, ?_, ?_, ?_, ?_, trivial⟩
    all_goals simp only [Turn.Apart, Call.Apart, Operation.Apart, Change.Apart]
    all_goals decide +kernel
  obtain ⟨restricted, explained⟩ := unaffected_by_others filing rfl ann apart
  exact ⟨apart, restricted view id _, explained view _⟩

end Entitlement
