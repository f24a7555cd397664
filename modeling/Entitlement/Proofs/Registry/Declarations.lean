import Entitlement.Proofs.Store.Tables
import Entitlement.Registry
import Mathlib.Data.List.Induction

/-!
# What a declaration does

`Registry.Takes` says once under which conditions a registry takes a declaration and what it becomes
(`declare_ok_iff`). A run of declarations goes from registry to registry by those that are taken, so
what each of them keeps holds after any run (`declareAll_induct`), and a model is a proxy after a run
exactly if some declaration of it made it one (`isProxy_iff`).
-/

namespace Entitlement.Registry

variable {r r' : Registry} {declarations : List Declaration} {declaration : Declaration}
  {model : Model}

/-- Nothing is registered for the model itself. -/
def Bare (r : Registry) (model : Model) : Prop :=
  r.applicable.get? model = none ∧ r.inheritance.get? model = none

/-- What a declaration that is taken makes of a registry. One that repeats another puts in place what is
there already. -/
inductive Takes (r : Registry) : Declaration → Registry → Prop where
  | space {name label : String} {space : Space} (valid : Space.of? name label = .ok space)
      (untaken : ∀ known, r.spaces.get? space.name = some known → known = space.label) :
      Takes r (.space name label) { r with spaces := r.spaces.insert space.name space.label }
  | permission {space : Space} {name label : String} {permission : LabelledPermission}
      (within : r.spaces.contains space.name = true)
      (valid : LabelledPermission.of? space name label = .ok permission)
      (untaken : ∀ known, r.labels.get? permission.id = some known → known = permission.label) :
      Takes r (.permission space name label)
        { r with labels := r.labels.insert permission.id permission.label }
  | register {model : Model} {permissions : List Permission}
      (declared : ∀ permission ∈ permissions, r.labels.contains permission = true)
      (own : r.proxies.get? model = none) :
      Takes r (.register model permissions)
        { r with
          applicable := r.applicable.insert model
            (((r.applicable.get? model).getD ∅).insertAll permissions) }
  | inherit {model : Model} {relation : String} {path : Path} (read : Path.parse relation = .ok path)
      (own : r.proxies.get? model = none) :
      Takes r (.inherit model relation)
        { r with
          inheritance := r.inheritance.insert model
            (if path ∈ (r.inheritance.get? model).getD [] then (r.inheritance.get? model).getD []
              else (r.inheritance.get? model).getD [] ++ [path]) }
  | standFor {proxy base : Model} (other : proxy ≠ base) (direct : r.proxies.get? base = none)
      (bare : r.Bare proxy) :
      Takes r (.standFor proxy base) { r with proxies := r.proxies.insert proxy base }

/-! ### One declaration -/

/-- A label is put under a key unless there is another one; putting it where it is keeps all as it is. -/
theorem putLabel_ok_iff {κ γ : Type} [Ord κ] (stored : SortedMap κ String) (k : κ) (label : String)
    (refuse : String → Failure) (kept new c : γ) (same : stored.get? k = some label → kept = new) :
    (match stored.get? k with
      | some known => if known = label then .ok kept else .error (refuse known)
      | none => .ok new) = (.ok c : Except Failure γ) ↔
      (∀ known, stored.get? k = some known → known = label) ∧ new = c := by
  cases found : stored.get? k with
  | none => simp
  | some known =>
    by_cases agrees : known = label
    · subst agrees
      simp [same found]
    · simp [agrees]

theorem declareSpace_ok_iff {name label : String} {space : Space} :
    r.declareSpace name label = .ok (space, r') ↔ Space.of? name label = .ok space ∧
      (∀ known, r.spaces.get? space.name = some known → known = space.label) ∧
      { r with spaces := r.spaces.insert space.name space.label } = r' := by
  unfold declareSpace
  cases valid : Space.of? name label with
  | error cause => simp [refused, Except.mapError, bind, Except.bind]
  | ok named =>
    have settled := putLabel_ok_iff r.spaces named.name named.label (.spaceTaken named.name) (named, r)
      (named, { r with spaces := r.spaces.insert named.name named.label }) (space, r')
      fun found => by rw [SortedMap.insert_of_get? found]
    rw [Prod.mk.injEq] at settled
    refine settled.trans ?_
    rw [Except.ok.injEq]
    constructor
    · rintro ⟨untaken, rfl, rfl⟩
      exact ⟨rfl, untaken, rfl⟩
    · rintro ⟨rfl, untaken, rfl⟩
      exact ⟨untaken, rfl, rfl⟩

theorem declarePermission_ok_iff {space : Space} {name label : String} {id : Permission} :
    r.declarePermission space name label = .ok (id, r') ↔ r.spaces.contains space.name = true ∧
      ∃ permission, LabelledPermission.of? space name label = .ok permission ∧ permission.id = id ∧
      (∀ known, r.labels.get? permission.id = some known → known = permission.label) ∧
      { r with labels := r.labels.insert permission.id permission.label } = r' := by
  unfold declarePermission
  cases within : r.spaces.contains space.name with
  | false => simp [bind, Except.bind]
  | true =>
    cases valid : LabelledPermission.of? space name label with
    | error cause => simp [refused, Except.mapError, bind, Except.bind]
    | ok named =>
      have settled := putLabel_ok_iff r.labels named.id named.label (.permissionTaken named.id)
        (named.id, r) (named.id, { r with labels := r.labels.insert named.id named.label }) (id, r')
        fun found => by rw [SortedMap.insert_of_get? found]
      rw [Prod.mk.injEq] at settled
      refine settled.trans ?_
      simp only [Except.ok.injEq, exists_eq_left', true_and]
      exact and_left_comm

theorem requireNoProxy_ok_iff : r.requireNoProxy model = .ok () ↔ r.proxies.get? model = none := by
  unfold requireNoProxy
  cases r.proxies.get? model <;> simp

theorem takes_of_register {permissions : List Permission}
    (taken : r.register model permissions = .ok r') : r.Takes (.register model permissions) r' := by
  unfold register at taken
  split at taken
  · cases taken
  · rename_i declared
    obtain ⟨_, own, taken⟩ := bind_ok taken
    cases taken
    exact .register (by simpa using declared) (requireNoProxy_ok_iff.mp own)

theorem takes_of_inherit {relation : String} (taken : r.inherit model relation = .ok r') :
    r.Takes (.inherit model relation) r' := by
  unfold Registry.inherit at taken
  obtain ⟨path, read, taken⟩ := bind_ok taken
  obtain ⟨_, own, taken⟩ := bind_ok taken
  cases taken
  exact .inherit (refused_ok read) (requireNoProxy_ok_iff.mp own)

theorem takes_of_standFor {proxy base : Model} (taken : r.standFor proxy base = .ok r') :
    r.Takes (.standFor proxy base) r' := by
  unfold standFor at taken
  split at taken
  · cases taken
  split at taken
  · cases taken
  split at taken
  · cases taken
  rename_i other direct bare
  cases taken
  simp only [SortedMap.contains, Bool.or_eq_true, not_or, Bool.not_eq_true,
    Option.isSome_eq_false_iff, Option.isNone_iff_eq_none] at direct bare
  exact .standFor other direct bare

/-- A registry takes exactly the declarations of which it makes another registry. -/
theorem declare_ok_iff : r.declare declaration = .ok r' ↔ r.Takes declaration r' := by
  constructor
  · intro taken
    cases declaration with
    | space name label =>
      obtain ⟨⟨space, after⟩, declared, rfl⟩ := map_ok taken
      obtain ⟨valid, untaken, rfl⟩ := declareSpace_ok_iff.mp declared
      exact .space valid untaken
    | permission space name label =>
      obtain ⟨⟨id, after⟩, declared, rfl⟩ := map_ok taken
      obtain ⟨within, permission, valid, -, untaken, rfl⟩ := declarePermission_ok_iff.mp declared
      exact .permission within valid untaken
    | register model permissions => exact takes_of_register taken
    | inherit model relation => exact takes_of_inherit taken
    | standFor proxy base => exact takes_of_standFor taken
  · intro takes
    cases takes with
    | space valid untaken =>
      have declared := declareSpace_ok_iff.mpr ⟨valid, untaken, rfl⟩
      exact congrArg (Except.map Prod.snd) declared
    | permission within valid untaken =>
      have declared := declarePermission_ok_iff.mpr ⟨within, _, valid, rfl, untaken, rfl⟩
      exact congrArg (Except.map Prod.snd) declared
    | @register model permissions declared own =>
      have none : permissions.find? (! r.labels.contains ·) = none := by simpa using declared
      change r.register model permissions = _
      unfold register
      rw [none, requireNoProxy_ok_iff.mpr own]
      rfl
    | @inherit model relation path read own =>
      change r.inherit model relation = _
      unfold Registry.inherit
      rw [read, requireNoProxy_ok_iff.mpr own]
      rfl
    | @standFor proxy base other direct bare =>
      change r.standFor proxy base = _
      simp [standFor, other, SortedMap.contains, direct, bare.1, bare.2]

/-! ### A run of declarations -/

theorem declareAll_concat (r : Registry) (declarations : List Declaration)
    (declaration : Declaration) : r.declareAll (declarations ++ [declaration]) =
      ((r.declareAll declarations).declare declaration).toOption.getD (r.declareAll declarations) := by
  rw [declareAll, List.foldl_append]
  rfl

/-- The last declaration of a run is taken, or changes nothing. -/
theorem declareAll_concat_cases (r : Registry) (declarations : List Declaration)
    (declaration : Declaration) :
    (r.declareAll declarations).Takes declaration (r.declareAll (declarations ++ [declaration])) ∨
      (∀ r', ¬ (r.declareAll declarations).Takes declaration r') ∧
        r.declareAll (declarations ++ [declaration]) = r.declareAll declarations := by
  rw [declareAll_concat]
  cases taken : (r.declareAll declarations).declare declaration with
  | ok after => exact .inl (declare_ok_iff.mp taken)
  | error failure =>
    refine .inr ⟨fun r' takes => ?_, rfl⟩
    rw [declare_ok_iff.mpr takes] at taken
    cases taken

theorem declareAll_concat_of_takes (takes : (r.declareAll declarations).Takes declaration r') :
    r.declareAll (declarations ++ [declaration]) = r' := by
  rw [declareAll_concat, declare_ok_iff.mpr takes]
  rfl

/-- What holds of a registry and stays with every declaration that is taken holds after any run. -/
theorem declareAll_induct {P : Registry → Prop} (start : P r)
    (step : ∀ r declaration r', P r → r.Takes declaration r' → P r')
    (declarations : List Declaration) : P (r.declareAll declarations) := by
  induction declarations using List.reverseRecOn with
  | nil => exact start
  | append_singleton declarations declaration ih =>
    rcases declareAll_concat_cases r declarations declaration with takes | ⟨-, same⟩
    · exact step _ _ _ ih takes
    · rw [same]
      exact ih

/-- The declaration is one of the run, and is taken when its turn comes. -/
def Adopts (declarations : List Declaration) (declaration : Declaration) : Prop :=
  ∃ earlier later r, declarations = earlier ++ declaration :: later ∧
    (declareAll ∅ earlier).declare declaration = .ok r

theorem not_adopts_nil : ¬ Adopts [] declaration := by
  rintro ⟨earlier, later, _, whole, _⟩
  simp at whole

theorem adopts_concat {last : Declaration} : Adopts (declarations ++ [last]) declaration ↔
    Adopts declarations declaration ∨
      declaration = last ∧ ∃ r, (declareAll ∅ declarations).Takes declaration r := by
  constructor
  · rintro ⟨earlier, later, r, whole, taken⟩
    rcases List.eq_nil_or_concat later with rfl | ⟨later, last', rfl⟩
    · obtain ⟨rfl, same⟩ := List.append_inj' whole rfl
      exact .inr ⟨(List.cons.inj same).1.symm, r, declare_ok_iff.mp taken⟩
    · rw [List.concat_eq_append, ← List.cons_append, ← List.append_assoc] at whole
      obtain ⟨whole, -⟩ := List.append_inj' whole rfl
      exact .inl ⟨earlier, later, r, whole, taken⟩
  · rintro (⟨earlier, later, r, rfl, taken⟩ | ⟨rfl, r, takes⟩)
    · exact ⟨earlier, later ++ [last], r, by simp, taken⟩
    · exact ⟨declarations, [], r, rfl, declare_ok_iff.mpr takes⟩

/-- A declaration makes the model that it is about a proxy, and no other one. -/
theorem Takes.isProxy_iff (takes : r.Takes declaration r') (model : Model) :
    (∃ base, r'.proxies.get? model = some base) ↔
      (∃ base, r.proxies.get? model = some base) ∨ ∃ base, .standFor model base = declaration := by
  cases takes with
  | @standFor proxy base =>
    simp only [SortedMap.get?_insert, Declaration.standFor.injEq, exists_and_left, exists_eq,
      and_true]
    by_cases here : model = proxy
    · simp [here]
    · simp [here]
  | _ => simp

/-- What holds of a registry once a declaration of some kind is taken, and stays, holds after a run
exactly if the run has such a declaration that is taken. -/
theorem declareAll_adopts_iff {P : Registry → Prop} {kind : Declaration → Prop} (start : ¬ P ∅)
    (step : ∀ r declaration r', r.Takes declaration r' → (P r' ↔ P r ∨ kind declaration)) :
    P (declareAll ∅ declarations) ↔ ∃ declaration, kind declaration ∧ Adopts declarations declaration := by
  induction declarations using List.reverseRecOn with
  | nil =>
    refine iff_of_false start ?_
    rintro ⟨declaration, -, adopted⟩
    exact not_adopts_nil adopted
  | append_singleton declarations last ih =>
    simp only [adopts_concat, and_or_left, exists_or, ← ih]
    rcases declareAll_concat_cases ∅ declarations last with takes | ⟨refused, same⟩
    · rw [step _ _ _ takes]
      refine or_congr_right ⟨fun here => ⟨last, here, rfl, _, takes⟩, ?_⟩
      rintro ⟨declaration, here, rfl, -⟩
      exact here
    · rw [same]
      refine (or_iff_left ?_).symm
      rintro ⟨declaration, -, rfl, r, takes⟩
      exact refused r takes

/-- A declaration registers something for the model that it is about, and for no other one. -/
theorem Takes.bare_iff (takes : r.Takes declaration r') (model : Model) : ¬ r'.Bare model ↔
    ¬ r.Bare model ∨ (∃ permissions, .register model permissions = declaration) ∨
      ∃ relation, .inherit model relation = declaration := by
  unfold Bare
  cases takes with
  | @register model' permissions declared own =>
    by_cases here : model = model'
    · simp [here, SortedMap.get?_insert]
    · simp [SortedMap.get?_insert, here]
  | @inherit model' relation path read own =>
    by_cases here : model = model'
    · simp [here, SortedMap.get?_insert]
    · simp [SortedMap.get?_insert, here]
  | _ => simp

/-- Something is registered for a model itself exactly if a declaration of the run did so. -/
theorem not_bare_iff : ¬ (declareAll ∅ declarations).Bare model ↔
    (∃ permissions, Adopts declarations (.register model permissions)) ∨
      ∃ relation, Adopts declarations (.inherit model relation) := by
  rw [declareAll_adopts_iff (P := fun r => ¬ r.Bare model) (not_not_intro ⟨rfl, rfl⟩)
    fun r declaration r' takes => takes.bare_iff model]
  simp only [or_and_right, exists_or, exists_exists_eq_and]

/-- The proxies after a run are the models that a declaration of it made to stand for another one. -/
theorem isProxy_iff : (∃ base, (declareAll ∅ declarations).proxies.get? model = some base) ↔
    ∃ base, Adopts declarations (.standFor model base) := by
  have empty : ¬ ∃ base, (∅ : Registry).proxies.get? model = some base := by
    rintro ⟨base, found⟩
    cases found
  rw [declareAll_adopts_iff (P := fun r => ∃ base, r.proxies.get? model = some base) empty
    fun r declaration r' takes => takes.isProxy_iff model]
  exact exists_exists_eq_and

end Entitlement.Registry
