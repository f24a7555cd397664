import Entitlement.Proofs.Administration.Integrity
import Entitlement.Proofs.Store.Labels

/-!
# Access everywhere

Whoever is in a group of a role holds the permissions of the role on every object. There are several
ways of asking for this, and after whatever calls they agree that it is so, and for whom
(`Site.everywhere_by_membership`).
-/

namespace Entitlement

/-! ### The roles of a subject -/

namespace Memory

variable {m : Memory}

/-- The subject is in a group of the stored role. -/
def Joined (m : Memory) (subject : String) (role : Role) : Prop :=
  role ∈ m.roles.values ∧ ∃ group ∈ role.groups, subject ∈ m.group group

theorem Keyed.rolesOf_nodup (keyed : m.Keyed) (subject : String) :
    ((m.rolesOf subject).map (·.id)).Nodup := by
  refine ((sortOn_perm _ _).map _).nodup_iff.mpr ?_
  exact (List.filter_sublist.map _).nodup keyed.ids_nodup

end Memory

/-! ### Objects that nothing is stored about -/

theorem exists_longest (keys : List String) : ∃ n, ∀ key ∈ keys, key.length ≤ n := by
  induction keys with
  | nil => exact ⟨0, by simp⟩
  | cons key rest ih =>
    obtain ⟨n, longest⟩ := ih
    refine ⟨key.length + n, List.forall_mem_cons.mpr ⟨by omega, fun other mem => ?_⟩⟩
    have := longest other mem
    omega

theorem exists_free_key (keys : List String) : ∃ key, Text.allBlank key = false ∧ key ∉ keys := by
  obtain ⟨n, longest⟩ := exists_longest keys
  refine ⟨String.ofList (List.replicate (n + 1) 'x'), ?_, fun mem => ?_⟩
  · unfold Text.allBlank
    rw [String.toList_ofList, List.replicate_succ, List.all_cons]
    rfl
  · have := longest _ mem
    rw [String.length_ofList, List.length_replicate] at this
    omega

theorem Witness.of_unrelated {registry : Registry} {relations : Relations} {granted : Object → Prop}
    {object : Object} {way : List Object} (witness : Witness registry relations granted object way)
    (unset : ∀ relation, relations object relation = .ok none) : granted object := by
  have alone : ∀ parent, ¬ IsParent registry relations object parent := by
    rintro parent ⟨_, _, path, _, led⟩
    obtain ⟨hop, rest, hops⟩ := List.exists_cons_of_ne_nil path.filled
    rw [hops, Relations.follow, unset hop] at led
    cases led
  cases witness with
  | own held => exact held
  | parent leads | above leads => exact absurd leads (alone _)

namespace Site

variable {site : Site Memory} {user : User} {permission : Permission}

/-- Of each model there is an object without entries and relations. -/
theorem exists_unrelated (unpinned : site.pinned = ∅) (model : Model) :
    ∃ object : Object, object.model = model ∧ Text.allBlank object.key = false ∧
      (∀ entry ∈ site.store.entries.values, entry.target ≠ object) ∧
      ∀ relation, site.relations object relation = .ok none := by
  obtain ⟨key, filled, free⟩ := exists_free_key
    (site.store.entries.values.map (·.target.key) ++ site.store.relations.keys.map (·.child.key))
  rw [List.mem_append, not_or] at free
  refine ⟨⟨model, key⟩, rfl, filled, fun entry mem same => ?_, fun relation => ?_⟩
  · exact free.1 (List.mem_map.mpr ⟨entry, mem, congrArg Object.key same⟩)
  · unfold relations
    rw [unpinned]
    change Except.ok (site.store.relations.get? ⟨⟨model, key⟩, relation⟩) = _
    cases found : site.store.relations.get? ⟨⟨model, key⟩, relation⟩ with
    | none => rfl
    | some parent =>
      have stored : (⟨⟨model, key⟩, relation⟩ : RelationKey) ∈ site.store.relations.keys :=
        List.mem_map.mpr ⟨_, SortedMap.mem_toList_iff.mpr found, rfl⟩
      exact absurd (List.mem_map.mpr ⟨_, stored, rfl⟩) free.2

/-- Who does not hold the permission everywhere is denied it on some object of each model. -/
theorem exists_withheld (unpinned : site.pinned = ∅)
    (grounded : site.relations.Grounded site.registry)
    (ordinary : user.globalAccess? (site.store.rolesOf user.subject) permission = none)
    (model : Model) :
    ∃ object : Object, object.model = model ∧ Text.allBlank object.key = false ∧
      site.restrict permission id [object] user ≠ .ok [object] := by
  obtain ⟨object, same, filled, free, unset⟩ := exists_unrelated unpinned model
  refine ⟨object, same, filled, fun ran => ?_⟩
  have known : site.registry.isRegistered object.model = true :=
    (restrict_inv site.store.contents ran).2 ordinary object (List.mem_singleton_self object)
  obtain ⟨grants, read, granted⟩ := site.store.contents.site_grantedObjects user permission
  rw [restrict_ok site.store.contents grounded ordinary read id [object] (by simp [known])] at ran
  have kept : site.keeps permission grants object = true := by
    have mem : object ∈ [object].filter fun c => site.keeps permission grants (id c) := by
      rw [Except.ok.inj ran]
      exact List.mem_singleton_self object
    exact (List.mem_filter.mp mem).2
  have held : site.store.contents.Granted user permission object := by
    obtain ⟨_, ⟨way, witness, _⟩ | ⟨way, witness, _⟩⟩ :=
      (keeps_iff site.store.contents grounded granted known).mp kept
    · exact witness.of_unrelated unset
    · exact witness.of_unrelated unset
  obtain ⟨_, _, entry, stored, _, on, _⟩ := held
  exact free entry stored on

/-! ### Asking -/

theorem globalAccess?_ok (user : User) (permission : Permission) :
    site.globalAccess? user permission =
      .ok (user.globalAccess? (site.store.rolesOf user.subject) permission) := by
  unfold globalAccess? User.globalAccess?
  cases user.override? <;> rfl

theorem requireAny_of_override {access : GlobalAccess} (passes : user.override? = some access)
    (permissions : List Permission) : site.requireAny user permissions = .ok access := by
  unfold requireAny
  rw [passes]

theorem requireAny_ok_iff (ordinary : user.override? = none) (permissions : List Permission) :
    (∃ access, site.requireAny user permissions = .ok access) ↔
      ∃ permission ∈ permissions, ∃ access, site.globalAccess? user permission = .ok (some access) := by
  simp only [globalAccess?_ok, Except.ok.injEq]
  have read : site.rolesOf user = .ok (site.store.rolesOf user.subject) := rfl
  unfold requireAny
  simp only [ordinary, read, bind, Except.bind]
  cases found : permissions.findSome? (user.globalAccess? (site.store.rolesOf user.subject) ·) with
  | some access =>
    obtain ⟨permission, mem, held⟩ := List.exists_of_findSome?_eq_some found
    exact iff_of_true ⟨access, rfl⟩ ⟨permission, mem, access, held⟩
  | none =>
    constructor
    · rintro ⟨access, ran⟩
      cases ran
    · rintro ⟨permission, mem, access, held⟩
      rw [List.findSome?_eq_none_iff.mp found permission mem] at held
      cases held

theorem requireEverywhere_ok_iff :
    site.requireEverywhere user permission = .ok () ↔
      (user.globalAccess? (site.store.rolesOf user.subject) permission).isSome = true := by
  constructor
  · intro allowed
    rw [Option.isSome_iff_ne_none]
    exact fun ordinary => globalAccess?_eq_none_iff.mp ordinary (requireEverywhere_ok allowed)
  · intro held
    obtain ⟨access, held⟩ := Option.isSome_iff_exists.mp held
    unfold requireEverywhere
    cases passes : user.override? with
    | some access' =>
      rw [requireAny_of_override passes]
      rfl
    | none =>
      obtain ⟨_, asked⟩ := (requireAny_ok_iff passes [permission]).mpr
        ⟨permission, List.mem_singleton_self permission, access, by rw [globalAccess?_ok, held]⟩
      rw [asked]
      rfl

/-! ### The answers -/

/-- What the ways of asking for a permission everywhere answer: why the user holds it, if so, and whether
restrictions keep all of their candidates. -/
structure AccessAnswers (site : Site Memory) (user : User) (permission : Permission)
    (access? : Option GlobalAccess) : Prop where
  level : site.globalAccess? user permission = .ok access?
  holds : site.holdsEverywhere user permission = .ok access?.isSome
  required : site.requireEverywhere user permission = .ok () ↔ access?.isSome = true
  unfiltered : access?.isSome = true → ∀ {α : Type} (object : α → Object) (candidates : List α),
    site.restrict permission object candidates user = .ok candidates
  withheld : access? = none → ∀ model, ∃ object : Object, object.model = model ∧
    Text.allBlank object.key = false ∧ site.restrict permission id [object] user ≠ .ok [object]

/-- The user passes every check for this reason. -/
structure PassesAs (site : Site Memory) (user : User) (access : GlobalAccess) : Prop where
  answers : ∀ permission, site.AccessAnswers user permission (some access)
  anyOf : ∀ permissions, site.requireAny user permissions = .ok access

theorem accessAnswers (unpinned : site.pinned = ∅)
    (grounded : site.relations.Grounded site.registry) (user : User) (permission : Permission) :
    site.AccessAnswers user permission
      (user.globalAccess? (site.store.rolesOf user.subject) permission) where
  level := globalAccess?_ok user permission
  holds := by
    unfold holdsEverywhere
    rw [globalAccess?_ok]
    rfl
  required := requireEverywhere_ok_iff
  unfiltered held _ object candidates := by
    obtain ⟨_, held⟩ := Option.isSome_iff_exists.mp held
    exact restrict_of_global site.store.contents held object candidates
  withheld := exists_withheld unpinned grounded

theorem passesAs (unpinned : site.pinned = ∅) (grounded : site.relations.Grounded site.registry)
    {access : GlobalAccess} (passes : user.override? = some access) : site.PassesAs user access where
  answers permission := by
    have answers := accessAnswers unpinned grounded user permission
    unfold User.globalAccess? at answers
    rw [passes] at answers
    exact answers
  anyOf := requireAny_of_override passes

theorem globalAccess?_isSome_iff (ordinary : user.override? = none) :
    (user.globalAccess? (site.store.rolesOf user.subject) permission).isSome = true ↔
      ∃ role, site.store.Joined user.subject role ∧ permission ∈ role.permissions := by
  rw [Option.isSome_iff_ne_none, ne_eq, globalAccess?_eq_none_iff, not_not]
  constructor
  · rintro (passes | ⟨role, stored, joined, held⟩)
    · exact absurd passes (override?_eq_none_iff.mp ordinary)
    · exact ⟨role, ⟨stored, joined⟩, held⟩
  · rintro ⟨role, ⟨stored, joined⟩, held⟩
    exact .inr ⟨role, stored, joined, held⟩

/-- Whatever a site has been asked for, the roles of a subject are those with a group that the subject is
a member of, each of them once. A user who passes no check as such holds a permission everywhere exactly
if one of these roles has it, whichever way this is asked, and a restriction leaves something out for
anyone else. Superusers pass every check as superusers, and the other members of the staff as staff. -/
theorem everywhere_by_membership (registry : Registry) (overrides : Overrides) (calls : List Call) :
    let site := (blank registry overrides).afterCalls calls
    (∀ subject, ∃ roles, Store.rolesOf site.store subject = .ok roles ∧
      (roles.map (·.id)).Nodup ∧ ∀ role, role ∈ roles ↔ site.store.Joined subject role) ∧
    ∀ user : User,
      (user.isSuperuser = false → user.isStaff = false →
        (∀ permission, ∃ access?, site.AccessAnswers user permission access? ∧
          (access?.isSome = true ↔
            ∃ role, site.store.Joined user.subject role ∧ permission ∈ role.permissions)) ∧
        ∀ permissions, (∃ access, site.requireAny user permissions = .ok access) ↔
          ∃ permission ∈ permissions, ∃ access,
            site.globalAccess? user permission = .ok (some access)) ∧
      (user.isSuperuser = true → site.PassesAs user .asSuperuser) ∧
      (user.isSuperuser = false → user.isStaff = true → site.PassesAs user .asStaff) := by
  intro site
  obtain ⟨known, sound, grounded⟩ := afterCalls_blank registry overrides calls
  have unpinned : site.pinned = ∅ := (afterCalls_frame (blank registry overrides) calls).2
  have grounded : site.relations.Grounded site.registry := known ▸ grounded
  refine ⟨fun subject => ?_, fun user => ⟨fun plain unstaffed => ?_, fun super => ?_,
    fun plain staffed => ?_⟩⟩
  · exact ⟨site.store.rolesOf subject, rfl, sound.keyed.rolesOf_nodup subject,
      fun role => Memory.mem_rolesOf⟩
  · have ordinary : user.override? = none := override?_eq_none_iff.mpr (by simp [plain, unstaffed])
    refine ⟨fun permission => ?_, requireAny_ok_iff ordinary⟩
    exact ⟨_, accessAnswers unpinned grounded user permission, globalAccess?_isSome_iff ordinary⟩
  · exact passesAs unpinned grounded (by simp [User.override?, super])
  · exact passesAs unpinned grounded (by simp [User.override?, plain, staffed])

open Sample in
example :
    let site := (blank office.registry {}).afterCalls
      (opening ++ [.perform root (.grantToRole (Uuid.drawn 1) editRoles)])
    site.globalAccess? ann editRoles = .ok (some .byRole) ∧
      site.globalAccess? ann createRoles = .ok none := by
  decide +kernel

end Site

end Entitlement
