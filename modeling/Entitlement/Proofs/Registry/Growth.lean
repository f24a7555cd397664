import Entitlement.Proofs.Registry.Proxies

/-!
# What a declaration leaves in place

A further declaration leaves all that is declared as it is, and what is read of a model grows at most.
One kind of declaration may take something away: that lets a proxy stand for another model than before,
which shows less (`declare_keeps_iff`).
-/

namespace Entitlement

namespace Registry

variable {r r' : Registry} {model model' : Model}

/-- All that is read of a model in one registry is read of a model in another: its permissions are
among those of the other, and its paths come first. -/
structure Covered (r : Registry) (model : Model) (r' : Registry) (model' : Model) : Prop where
  permissions : ∀ permission ∈ r.permissionsOf model, permission ∈ r'.permissionsOf model'
  paths : ∀ paths, r.pathsOf model = .ok paths →
    ∃ paths', r'.pathsOf model' = .ok paths' ∧ paths <+: paths'
  registered : r.isRegistered model = true → r'.isRegistered model' = true

/-- Spaces and permissions stay declared under their labels, and what is read of a model stays. -/
structure Keeps (r r' : Registry) : Prop where
  spaces : ∀ name label, r.spaces.get? name = some label → r'.spaces.get? name = some label
  labels : ∀ id label, r.labels.get? id = some label → r'.labels.get? id = some label
  models : ∀ model, r.Covered model r' model

/-! ### What is read of models -/

theorem ShowsNothing.covered (nothing : r.ShowsNothing model) : r.Covered model r' model' where
  permissions permission mem := by
    rw [nothing.permissions] at mem
    exact absurd mem (SortedSet.not_mem_empty permission)
  paths paths read := by
    rw [nothing.paths] at read
    cases read
  registered present := by
    rw [nothing.registered] at present
    cases present

/-- What is registered under the base of the one model covers what is under that of the other. -/
theorem covered_of_own
    (applicable : ∀ known, r.applicable.get? (r.base model) = some known →
      ∃ known', r'.applicable.get? (r'.base model') = some known' ∧ ∀ p ∈ known, p ∈ known')
    (inheritance : ∀ paths, r.inheritance.get? (r.base model) = some paths →
      ∃ paths', r'.inheritance.get? (r'.base model') = some paths' ∧ paths <+: paths') :
    r.Covered model r' model' := by
  have paths : ∀ paths, r.pathsOf model = .ok paths →
      ∃ paths', r'.pathsOf model' = .ok paths' ∧ paths <+: paths' := by
    intro paths read
    rcases pathsOf_ok_iff.mp read with found | ⟨-, ⟨known, found⟩, rfl⟩
    · obtain ⟨paths', found', longer⟩ := inheritance paths found
      exact ⟨paths', pathsOf_ok_iff.mpr (.inl found'), longer⟩
    · obtain ⟨known', found', -⟩ := applicable known found
      cases own : r'.inheritance.get? (r'.base model') with
      | none => exact ⟨[], pathsOf_ok_iff.mpr (.inr ⟨own, ⟨known', found'⟩, rfl⟩), List.nil_prefix⟩
      | some paths' => exact ⟨paths', pathsOf_ok_iff.mpr (.inl own), List.nil_prefix⟩
  refine ⟨fun permission mem => ?_, paths, fun present => ?_⟩
  · obtain ⟨known, found, mem⟩ := mem_permissionsOf_iff.mp mem
    obtain ⟨known', found', more⟩ := applicable known found
    exact mem_permissionsOf_iff.mpr ⟨known', found', more permission mem⟩
  · obtain ⟨found, read⟩ := isRegistered_iff.mp present
    obtain ⟨found', read', -⟩ := paths found read
    exact isRegistered_iff.mpr ⟨found', read'⟩

theorem covered_of_within (same : r'.base model = r.base model)
    (applicable : r.applicable.Within (fun known known' => ∀ p ∈ known, p ∈ known') r'.applicable)
    (inheritance : r.inheritance.Within (· <+: ·) r'.inheritance) : r.Covered model r' model := by
  refine covered_of_own (fun known found => ?_) fun paths found => ?_
  · rw [same]
    exact applicable _ known found
  · rw [same]
    exact inheritance _ paths found

theorem covered_of_same_base (same : r'.base model = r.base model)
    (applicable : r'.applicable = r.applicable) (inheritance : r'.inheritance = r.inheritance) :
    r.Covered model r' model := by
  refine covered_of_within same ?_ ?_
  · rw [applicable]
    exact .refl (fun _ _ mem => mem) _
  · rw [inheritance]
    exact .refl (fun _ => List.prefix_rfl) _

/-- What is read of a model depends on its base and on what is registered. -/
theorem covered_congr {r'' : Registry} {model'' : Model} (applicable : r''.applicable = r'.applicable)
    (inheritance : r''.inheritance = r'.inheritance) (same : r''.base model'' = r'.base model') :
    r.Covered model r'' model'' ↔ r.Covered model r' model' := by
  have permissions : r''.permissionsOf model'' = r'.permissionsOf model' := by
    rw [permissionsOf, permissionsOf, applicable, same]
  have paths : r''.pathsOf model'' = r'.pathsOf model' := by
    rw [pathsOf, pathsOf, applicable, inheritance, same]
  have registered : r''.isRegistered model'' = r'.isRegistered model' := by
    rw [isRegistered, isRegistered, applicable, inheritance, same]
  constructor
  · rintro ⟨permissions', paths', registered'⟩
    rw [permissions] at permissions'
    rw [paths] at paths'
    rw [registered] at registered'
    exact ⟨permissions', paths', registered'⟩
  · rintro ⟨permissions', paths', registered'⟩
    rw [← permissions] at permissions'
    rw [← paths] at paths'
    rw [← registered] at registered'
    exact ⟨permissions', paths', registered'⟩

/-! ### Declarations -/

theorem Keeps.refl (r : Registry) : r.Keeps r where
  spaces _ _ found := found
  labels _ _ found := found
  models _ := covered_of_same_base rfl rfl rfl

/-- To let a model stand for another one leaves what is read of all others, and shows of it what is read
of the other one. -/
theorem keeps_standFor_iff {proxy base : Model} (direct : r.proxies.get? base = none) :
    r.Keeps { r with proxies := r.proxies.insert proxy base } ↔ r.Covered proxy r base := by
  have moved : r.Covered proxy { r with proxies := r.proxies.insert proxy base } proxy ↔
      r.Covered proxy r base := by
    refine covered_congr rfl rfl ?_
    rw [base_of_own direct, base_of_proxy (SortedMap.get?_insert_self r.proxies proxy base)]
  constructor
  · intro keeps
    exact moved.mp (keeps.models proxy)
  · intro covered
    refine ⟨fun _ _ found => found, fun _ _ found => found, fun model => ?_⟩
    by_cases here : model = proxy
    · rw [here]
      exact moved.mpr covered
    · refine covered_of_same_base ?_ rfl rfl
      rw [Registry.base, Registry.base, SortedMap.get?_insert_of_ne _ here]

/-- A declaration that is taken and lets no proxy stand for another model leaves everything in place. -/
theorem Takes.keeps {declaration : Declaration} (takes : r.Takes declaration r')
    (covers : ∀ proxy base, declaration = .standFor proxy base → r.Covered proxy r base) :
    r.Keeps r' := by
  cases takes with
  | @space name label space valid untaken =>
    refine ⟨fun name label found => ?_, fun _ _ found => found, fun _ =>
      covered_of_same_base rfl rfl rfl⟩
    rw [SortedMap.get?_insert]
    split
    · rename_i here
      rw [here] at found
      rw [untaken label found]
    · exact found
  | @permission space name label permission within valid untaken =>
    refine ⟨fun _ _ found => found, fun id label found => ?_, fun _ =>
      covered_of_same_base rfl rfl rfl⟩
    rw [SortedMap.get?_insert]
    split
    · rename_i here
      rw [here] at found
      rw [untaken label found]
    · exact found
  | @register model permissions declared own =>
    refine ⟨fun _ _ found => found, fun _ _ found => found, fun model =>
      covered_of_within rfl (SortedMap.within_insert (fun _ _ mem => mem) fun known found p mem => ?_)
        (.refl (fun _ => List.prefix_rfl) _)⟩
    rw [SortedSet.mem_insertAll, found]
    exact .inl mem
  | @inherit model relation path read own =>
    refine ⟨fun _ _ found => found, fun _ _ found => found, fun model =>
      covered_of_within rfl (.refl (fun _ _ mem => mem) _)
        (SortedMap.within_insert (fun _ => List.prefix_rfl) fun known found => ?_)⟩
    rw [found]
    dsimp only [Option.getD_some]
    split
    · exact List.prefix_rfl
    · exact List.prefix_append known [path]
  | standFor _ direct _ => exact (keeps_standFor_iff direct).mpr (covers _ _ rfl)

/-- After any run, a further declaration leaves what is declared and what is read of each model in place,
unless it lets a proxy stand for another model that does not show all that the proxy showed. -/
theorem declare_keeps_iff (declarations : List Declaration) (declaration : Declaration) :
    (declareAll ∅ declarations).Keeps (declareAll ∅ (declarations ++ [declaration])) ↔
      ∀ proxy old new after, declaration = .standFor proxy new →
        (declareAll ∅ declarations).declare declaration = .ok after →
        (declareAll ∅ declarations).proxies.get? proxy = some old →
        (declareAll ∅ declarations).Covered proxy (declareAll ∅ declarations) new := by
  constructor
  · rintro keeps proxy old new after rfl taken -
    have takes := declare_ok_iff.mp taken
    rw [declareAll_concat_of_takes takes] at keeps
    cases takes with
    | standFor _ direct _ => exact (keeps_standFor_iff direct).mp keeps
  · intro covers
    rcases declareAll_concat_cases ∅ declarations declaration with takes | ⟨-, same⟩
    · refine takes.keeps fun proxy new here => ?_
      subst here
      cases stood : (declareAll ∅ declarations).proxies.get? proxy with
      | some old => exact covers proxy old new _ rfl (declare_ok_iff.mpr takes) stood
      | none =>
        -- what becomes a proxy had nothing to show before
        generalize declareAll ∅ (declarations ++ [.standFor proxy new]) = after at takes
        cases takes with
        | standFor _ _ bare =>
          refine ShowsNothing.covered (showsNothing_of_bare ?_)
          rw [base_of_own stood]
          exact bare
    · rw [same]
      exact .refl _

end Registry

/-! ### A proxy that is moved -/

namespace Registry

open Sample

/-- The binder stands for a shelf with something registered, and then for a cabinet with nothing. -/
theorem moved_proxy_loses :
    borrow ∈ (declareAll ∅ shelved).permissionsOf binder ∧
      (declareAll ∅ shelved).isRegistered binder = true ∧
      ((declareAll ∅ shelved).declare (.standFor binder cabinet)).toOption.isSome = true ∧
      (declareAll ∅ (shelved ++ [.standFor binder cabinet])).permissionsOf binder = ∅ ∧
      (declareAll ∅ (shelved ++ [.standFor binder cabinet])).isRegistered binder = false ∧
      ¬ (declareAll ∅ shelved).Keeps (declareAll ∅ (shelved ++ [.standFor binder cabinet])) := by
  have before : (declareAll ∅ shelved).isRegistered binder = true := by decide +kernel
  have after : (declareAll ∅ (shelved ++ [.standFor binder cabinet])).isRegistered binder = false := by
    decide +kernel
  refine ⟨by decide +kernel, before, by decide +kernel, by decide +kernel, after, fun keeps => ?_⟩
  have still := (keeps.models binder).registered before
  rw [after] at still
  cases still

end Registry

end Entitlement
