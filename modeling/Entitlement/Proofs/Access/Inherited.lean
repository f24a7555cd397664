import Entitlement.Access.Inherited
import Entitlement.Proofs.Access.Restriction

/-!
# What a role inherits

`inherited_eq_restrict` says that the permissions which a role inherits on an object are those for which
a user with this role alone would get the object if the role had no entry on it.
-/

namespace Entitlement

/-- In the other store the user has the role with its permissions and no other one; its entries and
relations are those of the store, but for the entry of the role on the target. -/
structure Memory.Alone (m other : Memory) (target : Object) (role : Role) (user : User) : Prop where
  entries : other.entries = m.entries.erase ⟨target, role.id⟩
  relations : other.relations = m.relations
  ordinary : user.override? = none
  only : ∃ held, other.rolesOf user.subject = [held] ∧ held.id = role.id ∧
    held.permissions = role.permissions

namespace Site

variable {site : Site Memory}

/-! ### The entries of a role -/

theorem entriesAmong_ok (site : Site Memory) (id : RoleId) (seen objects : List Object) :
    ∃ entries, site.entriesAmong id seen objects = .ok entries ∧ ∀ entry, entry ∈ entries ↔
      ∃ object ∈ objects, object ∉ seen ∧ site.store.entries.get? ⟨object, id⟩ = some entry := by
  induction objects generalizing seen with
  | nil => exact ⟨[], rfl, by simp⟩
  | cons object rest ih =>
    by_cases known : object ∈ seen
    · obtain ⟨entries, read, mem_iff⟩ := ih seen
      refine ⟨entries, ?_, fun entry => ?_⟩
      · rw [entriesAmong, if_pos known]
        exact read
      · rw [mem_iff]
        constructor
        · rintro ⟨other, mem, unseen, found⟩
          exact ⟨other, List.mem_cons_of_mem _ mem, unseen, found⟩
        · rintro ⟨other, mem, unseen, found⟩
          rcases List.mem_cons.mp mem with rfl | mem
          · exact absurd known unseen
          · exact ⟨other, mem, unseen, found⟩
    · obtain ⟨entries, read, mem_iff⟩ := ih (object :: seen)
      refine ⟨(site.store.entries.get? ⟨object, id⟩).toList ++ entries, ?_, fun entry => ?_⟩
      · rw [entriesAmong, if_neg known]
        simp only [Store.findEntry, read, bind, Except.bind]
        rfl
      · rw [List.mem_append, Option.mem_toList, mem_iff]
        constructor
        · rintro (found | ⟨other, mem, unseen, found⟩)
          · exact ⟨object, List.mem_cons_self, known, found⟩
          · exact ⟨other, List.mem_cons_of_mem _ mem,
              fun among => unseen (List.mem_cons_of_mem _ among), found⟩
        · rintro ⟨other, mem, unseen, found⟩
          by_cases same : other = object
          · rw [same] at found
            exact .inl found
          · refine .inr ⟨other, (List.mem_cons.mp mem).resolve_left same, fun among => ?_, found⟩
            exact (List.mem_cons.mp among).elim same unseen

theorem mem_objectsListing {entries : List Entry} {permission : Permission} {object : Object} :
    object ∈ objectsListing entries permission ↔
      ∃ entry ∈ entries, entry.lists permission = true ∧ entry.target = object := by
  rw [objectsListing, SortedSet.mem_ofList, List.mem_map]
  constructor
  · rintro ⟨entry, mem, same⟩
    obtain ⟨among, lists⟩ := List.mem_filter.mp mem
    exact ⟨entry, among, lists, same⟩
  · rintro ⟨entry, among, lists, same⟩
    exact ⟨entry, List.mem_filter.mpr ⟨among, lists⟩, same⟩

theorem inherited_ok (grounded : site.relations.Grounded site.registry) {target : Object}
    (known : site.registry.isRegistered target.model = true) {id : RoleId} {role : Role}
    (stored : site.store.roles.get? id = some role) :
    ∃ entries inherited, site.inherited target id = .ok inherited ∧
      (∀ entry, entry ∈ entries ↔ ∃ object ∈ (site.conditionOf target).objects,
        object ≠ target ∧ site.store.entries.get? ⟨object, id⟩ = some entry) ∧
      ∀ permission, permission ∈ inherited ↔
        site.registry.applies target.model permission = true ∧ (role.holds permission = true ∨
          (site.conditionOf target).holds (objectsListing entries permission) = true) := by
  obtain ⟨entries, read, mem_iff⟩ :=
    entriesAmong_ok site id [target] (site.conditionOf target).objects
  have found : site.role id = .ok role := by
    unfold Site.role
    simp only [Store.findRole, stored, bind, Except.bind]
    rfl
  refine ⟨entries, (site.registry.permissionsOf target.model).filter fun permission =>
    role.holds permission || (! (objectsListing entries permission).isEmpty &&
      (site.conditionOf target).holds (objectsListing entries permission)), ?_, fun entry => ?_,
    fun permission => ?_⟩
  · unfold inherited
    rw [requireRegistered_ok known, found, condition_ok grounded known]
    simp only [bind, Except.bind, read]
    rfl
  · rw [mem_iff]
    simp only [List.mem_singleton, ne_eq]
  · rw [SortedSet.mem_filter, Bool.or_eq_true, Bool.and_eq_true, Bool.not_eq_true']
    refine and_congr Iff.rfl (or_congr Iff.rfl ?_)
    constructor
    · exact fun h => h.2
    · intro holds
      refine ⟨Bool.eq_false_iff.mpr fun none => ?_, holds⟩
      rw [Condition.holds_of_isEmpty _ none] at holds
      cases holds

/-! ### The role alone -/

variable {other : Memory} {target : Object} {role : Role} {user : User}

theorem globalAccess?_of_alone (alone : site.store.Alone other target role user)
    (permission : Permission) :
    user.globalAccess? (other.rolesOf user.subject) permission =
      if role.holds permission then some .byRole else none := by
  obtain ⟨held, only, _, same⟩ := alone.only
  have holds : held.holds permission = role.holds permission := by
    rw [Role.holds, Role.holds, same]
  unfold User.globalAccess?
  rw [alone.ordinary, only]
  simp only [List.any_cons, List.any_nil, Bool.or_false, holds]

theorem granted_of_alone (alone : site.store.Alone other target role user)
    (keyed : site.store.Keyed) (permission : Permission) (object : Object) :
    other.contents.Granted user permission object ↔ object ≠ target ∧
      ∃ entry, site.store.entries.get? ⟨object, role.id⟩ = some entry ∧
        entry.lists permission = true := by
  obtain ⟨held, only, same, _⟩ := alone.only
  constructor
  · rintro ⟨role', mem, entry, stored, owner, on, lists⟩
    change role' ∈ other.rolesOf user.subject at mem
    rw [only, List.mem_singleton] at mem
    subst mem
    obtain ⟨key, found⟩ := SortedMap.mem_values_iff.mp stored
    rw [alone.entries, SortedMap.get?_erase] at found
    split at found
    · cases found
    · rename_i differs
      obtain ⟨target_eq, role_eq⟩ := keyed.entries key entry found
      -- An entry lies under its own object and role, so it is found by asking for them.
      have place : key = ⟨object, role.id⟩ := by
        rw [← on, ← same, ← owner, target_eq, role_eq]
      rw [place] at found differs
      exact ⟨fun again => differs (by rw [again]), entry, found, lists⟩
  · rintro ⟨differs, entry, found, lists⟩
    obtain ⟨target_eq, role_eq⟩ := keyed.entries _ entry found
    refine ⟨held, ?_, entry, ?_, role_eq.trans same.symm, target_eq, lists⟩
    · change held ∈ other.rolesOf user.subject
      rw [only]
      exact List.mem_singleton_self held
    · refine SortedMap.mem_values_iff.mpr ⟨⟨object, role.id⟩, ?_⟩
      rw [alone.entries, SortedMap.get?_erase, if_neg, found]
      exact fun again => differs (congrArg EntryKey.target again)

theorem contains_of_alone (alone : site.store.Alone other target role user)
    (keyed : site.store.Keyed) {permission : Permission} {entries : List Entry} {objects : List Object}
    (mem_iff : ∀ entry, entry ∈ entries ↔ ∃ object ∈ objects,
      object ≠ target ∧ site.store.entries.get? ⟨object, role.id⟩ = some entry)
    {grants : SortedSet Object}
    (granted : ∀ object, object ∈ grants ↔ other.contents.Granted user permission object) :
    ∀ object ∈ objects,
      (objectsListing entries permission).contains object = grants.contains object := by
  intro object among
  rw [Bool.eq_iff_iff, ← SortedSet.mem_iff, ← SortedSet.mem_iff, mem_objectsListing, granted,
    granted_of_alone alone keyed]
  constructor
  · rintro ⟨entry, mem, lists, on⟩
    obtain ⟨object', _, differs, found⟩ := (mem_iff entry).mp mem
    have same : object' = object := (keyed.entries _ entry found).1.symm.trans on
    rw [same] at differs found
    exact ⟨differs, entry, found, lists⟩
  · rintro ⟨differs, entry, found, lists⟩
    exact ⟨entry, (mem_iff entry).mpr ⟨object, among, differs, found⟩, lists,
      (keyed.entries _ entry found).1⟩

theorem exists_alone (m : Memory) (target : Object) (role : Role) :
    ∃ other user, m.Alone other target role user := by
  let held : Role := { role with groups := SortedSet.insert ∅ "group" }
  let other : Memory := {
    m with
    roles := SortedMap.insert ∅ role.id held
    members := SortedMap.insert ∅ "group" (SortedSet.insert ∅ "member")
    entries := m.entries.erase ⟨target, role.id⟩ }
  have member : other.isHeldBy held "member" = true := by
    have named : other.group "group" = SortedSet.insert ∅ "member" := by
      change ((SortedMap.insert ∅ "group" _).get? "group").getD ∅ = _
      rw [SortedMap.get?_insert, if_pos rfl, Option.getD_some]
    change (["group"].any fun group => (other.group group).contains "member") = true
    rw [List.any_cons, named, Bool.or_eq_true, ← SortedSet.mem_iff, SortedSet.mem_insert]
    exact .inl (.inl rfl)
  refine ⟨other, ({} : Overrides).user "member", rfl, rfl, rfl, held, ?_, rfl, rfl⟩
  change sortOn (·.label) ([held].filter (other.isHeldBy · "member")) = [held]
  rw [List.filter_singleton, member]
  rfl

theorem restrict_of_alone (alone : site.store.Alone other target role user)
    (keyed : site.store.Keyed) (grounded : site.relations.Grounded site.registry)
    (known : site.registry.isRegistered target.model = true) {permission : Permission}
    (applies : site.registry.applies target.model permission = true)
    (nowhere : role.holds permission = false) {entries : List Entry}
    (mem_iff : ∀ entry, entry ∈ entries ↔ ∃ object ∈ (site.conditionOf target).objects,
      object ≠ target ∧ site.store.entries.get? ⟨object, role.id⟩ = some entry) :
    Site.restrict { site with store := other } permission id [target] user =
      .ok ([target].filter fun _ =>
        (site.conditionOf target).holds (objectsListing entries permission)) := by
  let after : Site Memory := { site with store := other }
  have registry : after.registry = site.registry := rfl
  have same : after.relations = site.relations := relations_congr rfl alone.relations
  have condition := conditionOf_congr registry same target
  let contents : Contents after.store := other.contents
  have ordinary : user.globalAccess? (contents.rolesOf user.subject) permission = none := by
    have access := globalAccess?_of_alone alone permission
    rw [nowhere] at access
    exact access
  obtain ⟨grants, read, granted⟩ := contents.site_grantedObjects user permission
  have kept : after.restrict permission id [target] user =
      .ok ([target].filter fun c => after.keeps permission grants (id c)) := by
    apply restrict_ok contents (same ▸ grounded) ordinary read
    intro c mem
    rw [List.mem_singleton.mp mem]
    exact known
  have decided : after.keeps permission grants target = (site.conditionOf target).holds grants := by
    rw [keeps, condition]
    change (site.registry.applies target.model permission && _) = _
    rw [applies, Bool.true_and]
  have agree := contains_of_alone alone keyed mem_iff granted
  change after.restrict permission id [target] user = _
  rw [kept, List.filter_singleton, List.filter_singleton, id, decided, Condition.holds_congr _ agree]

/-- For every permission of the object's model, a role inherits it on the object exactly if a user with
this role alone would get the object without the role's entry on it. -/
theorem inherited_eq_restrict {roleId : RoleId} (changes : List Change)
    (reached : site.store = Change.run ∅ changes)
    (grounded : site.relations.Grounded site.registry)
    (known : site.registry.isRegistered target.model = true)
    (stored : site.store.roles.get? roleId = some role) :
    ∃ inherited, site.inherited target roleId = .ok inherited ∧
      (∃ other user, site.store.Alone other target role user) ∧
      ∀ other user, site.store.Alone other target role user → ∀ permission,
        permission ∈ inherited ↔ site.registry.applies target.model permission = true ∧
          Site.restrict { site with store := other } permission id [target] user =
            .ok [target] := by
  have keyed : site.store.Keyed := by
    rw [reached]
    exact Memory.run_keyed Memory.empty_keyed changes
  obtain rfl := keyed.roles roleId role stored
  obtain ⟨entries, inherited, read, mem_entries, mem_iff⟩ := inherited_ok grounded known stored
  refine ⟨inherited, read, exists_alone site.store target role, ?_⟩
  intro other user alone permission
  rw [mem_iff]
  refine and_congr_right fun applies => ?_
  cases everywhere : role.holds permission with
  | true =>
    have access := globalAccess?_of_alone alone permission
    rw [if_pos everywhere] at access
    simp only [true_or, true_iff]
    exact restrict_of_global other.contents access _ _
  | false =>
    rw [restrict_of_alone alone keyed grounded known applies everywhere mem_entries,
      List.filter_singleton]
    cases (site.conditionOf target).holds (objectsListing entries permission) with
    | true => simp
    | false => simp

end Site

namespace Sample

def edit : Permission := ⟨"app", "edit", view.space_segment, by decide⟩

/-- The role may view what is in the folder, and edit the document by an entry on that. -/
def editing : List Change := filing ++ [.addPermission ⟨document, "d"⟩ reader edit]

def study : Site Memory where
  registry := {
    library.registry with
    applicable := .ofList [(document, .ofList [view, edit]), (folder, .ofList [view])] }
  store := Change.run ∅ editing

theorem study_grounded : study.relations.Grounded study.registry :=
  Memory.grounded (by decide +kernel) (by intro pin mem; cases mem)

end Sample

open Sample in
/-- The own entry of the document is there and does not count. -/
theorem Site.inherited_eq_restrict_in_study :
    let own : EntryKey := ⟨⟨document, "d"⟩, reader⟩
    ∃ inherited, ∃ other : Memory,
      (study.store.entries.get? own).isSome = true ∧ other.entries = study.store.entries.erase own ∧
      study.inherited ⟨document, "d"⟩ reader = .ok inherited ∧
      (∀ permission, permission ∈ inherited ↔ study.registry.applies document permission = true ∧
        Site.restrict { study with store := other } permission id [⟨document, "d"⟩] ann =
          .ok [⟨document, "d"⟩]) ∧
      view ∈ inherited ∧ edit ∉ inherited := by
  intro own
  let role : Role := ⟨reader, "reader", ∅, .ofList ["staff"]⟩
  let other : Memory := { study.store with entries := study.store.entries.erase own }
  have alone : study.store.Alone other ⟨document, "d"⟩ role ann := by
    refine ⟨rfl, rfl, rfl, role, ?_, rfl, rfl⟩
    decide +kernel
  have known : study.registry.isRegistered (⟨document, "d"⟩ : Object).model = true := by
    decide +kernel
  have stored : study.store.roles.get? reader = some role := by decide +kernel
  obtain ⟨inherited, read, _, iff⟩ :=
    inherited_eq_restrict editing rfl study_grounded known stored
  have each := iff other ann alone
  refine ⟨inherited, other, by decide +kernel, rfl, read, each, (each view).mpr ?_, fun mem => ?_⟩
  · decide +kernel
  · have kept := ((each edit).mp mem).2
    have dropped : Site.restrict { study with store := other } edit id [⟨document, "d"⟩] ann = .ok [] := by
      decide +kernel
    cases dropped.symm.trans kept

end Entitlement
