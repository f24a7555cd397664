import Entitlement.Attempt
import Entitlement.Proofs.Naming.Grammar
import Entitlement.Proofs.Registry.Proxies

/-!
# What holds of every registry

A registry that declarations have made refers to nothing that is not declared, and lists the paths of a
model in the order in which they were declared first. A declaration that fails on its way leaves the
registry alone, and one that is repeated leaves it as it is (`declareAll_closed`).
-/

namespace Entitlement

open Text

/-! ### Writes within a run -/

namespace Attempt

variable {σ α : Type}

/-- Goes to another state whatever the state is. -/
def write (f : σ → σ) : Attempt σ Unit := advance fun s => .ok (f s)

theorem write_bind (f : σ → σ) (next : Unit → Attempt σ α) (s : σ) :
    (write f >>= next) s = next () (f s) := rfl

theorem write_apply (f : σ → σ) (s : σ) : write f s = (.ok (), f s) := rfl

theorem forM_write (f : α → σ → σ) (as : List α) (s : σ) :
    (as.forM fun a => write (f a)) s = (.ok (), as.foldl (fun s a => f a s) s) := by
  induction as generalizing s with
  | nil => rfl
  | cons a rest ih => exact ih (f a s)

end Attempt

namespace Registry

variable {r r' : Registry} {declaration : Declaration} {model : Model}

/-! ### Declarations check by check and write by write -/

/-- The registry with an entry for the model, and a permission in it if one is given. -/
def putPermission (r : Registry) (model : Model) (permission : Option Permission) : Registry :=
  let known := (r.applicable.get? model).getD ∅
  { r with applicable := r.applicable.insert model (known.insertAll permission.toList) }

/-- The registry with an entry for the model, and a path at its end if one is given. -/
def putPath (r : Registry) (model : Model) (path : Option Path) : Registry :=
  let known := (r.inheritance.get? model).getD []
  { r with inheritance := r.inheritance.insert model (known ++ path.toList) }

/-- What a declaration does one after another. A check fails in the registry as it stands then, and what
was written before stays. -/
def perform : Declaration → Attempt Registry Unit
  | .space name label => do
    let space ← .given (refused (Space.of? name label))
    match ← .look fun r => .ok (r.spaces.get? space.name) with
    | some known => if known ≠ space.label then .fail (.spaceTaken space.name known)
    | none => .write fun r => { r with spaces := r.spaces.insert space.name space.label }
  | .permission space name label => do
    let declared ← .look fun r => .ok (r.spaces.contains space.name)
    if ! declared then .fail (.spaceUndeclared space.name)
    let permission ← .given (refused (LabelledPermission.of? space name label))
    match ← .look fun r => .ok (r.labels.get? permission.id) with
    | some known =>
      if known ≠ permission.label then .fail (.permissionTaken permission.id known)
    | none => .write fun r => { r with labels := r.labels.insert permission.id permission.label }
  | .register model permissions => do
    match ← .look fun r => .ok (permissions.find? (! r.labels.contains ·)) with
    | some permission => .fail (.permissionUndeclared permission model)
    | none =>
      .look (·.requireNoProxy model)
      .write (·.putPermission model none)
      permissions.forM fun permission => .write (·.putPermission model (some permission))
  | .inherit model relation => do
    let path ← .given (refused (Path.parse relation))
    .look (·.requireNoProxy model)
    .write (·.putPath model none)
    let known ← .look fun r => .ok ((r.inheritance.get? model).getD [])
    if path ∉ known then .write (·.putPath model (some path))
  | .standFor proxy base => do
    if proxy = base then .fail (.proxyOfItself proxy)
    let chained ← .look fun r => .ok (r.proxies.contains base)
    if chained then .fail (.proxyOfProxy base)
    let own ← .look fun r => .ok (r.applicable.contains proxy || r.inheritance.contains proxy)
    if own then .fail (.proxyHasOwn proxy)
    .write fun r => { r with proxies := r.proxies.insert proxy base }

theorem putPermissions_eq (r : Registry) (model : Model) (permissions : List Permission) :
    permissions.foldl (fun r permission => r.putPermission model (some permission))
        (r.putPermission model none) =
      { r with
        applicable := r.applicable.insert model
          (((r.applicable.get? model).getD ∅).insertAll permissions) } := by
  induction permissions using List.reverseRecOn with
  | nil => rfl
  | append_singleton permissions permission ih =>
    rw [List.foldl_append, ih, List.foldl_cons, List.foldl_nil, putPermission]
    dsimp only
    rw [SortedMap.get?_insert_self, SortedMap.insert_insert, Option.getD_some, SortedSet.insertAll,
      SortedSet.insertAll, SortedSet.insertAll, List.foldl_append]
    rfl

theorem perform_register (r : Registry) (model : Model) (permissions : List Permission) :
    perform (.register model permissions) r = Attempt.advance (·.register model permissions) r := by
  rw [Attempt.advance_apply]
  simp only [perform, register, Attempt.look_bind]
  cases permissions.find? (! r.labels.contains ·) with
  | some permission => rfl
  | none =>
    simp only [Attempt.look_bind]
    cases r.requireNoProxy model with
    | error failure => rfl
    | ok own =>
      simp only [Attempt.write_bind, Attempt.forM_write, putPermissions_eq]
      rfl

theorem perform_inherit (r : Registry) (model : Model) (relation : String) :
    perform (.inherit model relation) r = Attempt.advance (·.inherit model relation) r := by
  rw [Attempt.advance_apply]
  simp only [perform, Registry.inherit, Attempt.given, Attempt.look_bind]
  cases refused (Path.parse relation) with
  | error failure => rfl
  | ok path =>
    cases r.requireNoProxy model with
    | error failure => rfl
    | ok own =>
      simp only [Attempt.write_bind, Attempt.look_bind]
      dsimp only [bind, Except.bind]
      by_cases listed : path ∈ (r.inheritance.get? model).getD []
      · simp only [putPath, SortedMap.get?_insert_self, Option.getD_some, Option.toList_none,
          List.append_nil, listed, not_true, ↓reduceIte]
        rfl
      · simp only [putPath, SortedMap.get?_insert_self, SortedMap.insert_insert, Option.getD_some,
          Option.toList_none, Option.toList_some, List.append_nil, listed, not_false_eq_true, ↓reduceIte,
          Attempt.write_apply]
        rfl

/-- Checked and written step by step, a declaration does what it does as a whole. -/
theorem perform_eq (declaration : Declaration) :
    perform declaration = .advance (·.declare declaration) := by
  funext r
  cases declaration with
  | space name label =>
    rw [Attempt.advance_apply]
    simp only [perform, declare, declareSpace, Attempt.given, Attempt.look_bind]
    cases refused (Space.of? name label) with
    | error failure => rfl
    | ok space =>
      dsimp only [bind, Except.bind]
      cases r.spaces.get? space.name with
      | none => rfl
      | some known => by_cases agrees : known = space.label <;> simp only [agrees, ne_eq, ↓reduceIte,
          not_true, not_false_eq_true] <;> rfl
  | permission space name label =>
    rw [Attempt.advance_apply]
    simp only [perform, declare, declarePermission, Attempt.given, Attempt.look_bind]
    cases r.spaces.contains space.name with
    | false => rfl
    | true =>
      simp only [Bool.not_true, Bool.false_eq_true, ↓reduceIte, Attempt.look_bind]
      cases refused (LabelledPermission.of? space name label) with
      | error failure => rfl
      | ok permission =>
        dsimp only [bind, Except.bind]
        cases r.labels.get? permission.id with
        | none => rfl
        | some known => by_cases agrees : known = permission.label <;> simp only [agrees, ne_eq, ↓reduceIte,
            not_true, not_false_eq_true] <;> rfl
  | register model permissions => exact perform_register r model permissions
  | inherit model relation => exact perform_inherit r model relation
  | standFor proxy base =>
    rw [Attempt.advance_apply]
    simp only [perform, declare, standFor]
    by_cases same : proxy = base
    · simp only [same, ↓reduceIte, Attempt.fail_bind]
    · cases chained : r.proxies.contains base <;>
        cases own : (r.applicable.contains proxy || r.inheritance.contains proxy) <;>
        simp [same, Attempt.look_bind, Attempt.fail_bind, Attempt.write_apply, own, chained]

/-! ### What a registry refers to -/

/-- What a registry refers to is declared in it, and nothing is declared twice or for a proxy. -/
structure Closed (r : Registry) : Prop where
  declared : ∀ model known, r.applicable.get? model = some known →
    ∀ permission ∈ known, r.labels.contains permission = true
  spaced : ∀ permission label, r.labels.get? permission = some label →
    r.spaces.contains permission.space = true
  /-- A space is declared under the very name that it has. -/
  named : ∀ name label, r.spaces.get? name = some label → Space.of? name label = .ok ⟨name, label⟩
  once : ∀ model paths, r.inheritance.get? model = some paths → paths.Nodup
  bare : r.ProxiesBare
  other : ∀ proxy base, r.proxies.get? proxy = some base → proxy ≠ base

theorem closed_empty : (∅ : Registry).Closed where
  declared _ _ found := by cases found
  spaced _ _ found := by cases found
  named _ _ found := by cases found
  once _ _ found := by cases found
  bare _ _ found := by cases found
  other _ _ found := by cases found

theorem named_self {name label : String} {space : Space} (made : Space.of? name label = .ok space) :
    Space.of? space.name space.label = .ok ⟨space.name, space.label⟩ := by
  obtain ⟨-, segment, rfl, filled⟩ := Space.of?_ok_iff.mp made
  exact Space.of?_ok_iff.mpr ⟨trim_of_isSegment segment, segment, rfl, filled⟩

theorem Takes.closed (takes : r.Takes declaration r') (closed : r.Closed) : r'.Closed := by
  have bare := takes.proxiesBare closed.bare
  cases takes with
  | @space name label space valid untaken =>
    exact { closed with
      spaced := fun permission label found =>
        SortedMap.contains_insert.mpr (.inr (closed.spaced permission label found))
      named := SortedMap.forall_insert (P := fun name label => Space.of? name label = .ok ⟨name, label⟩)
        (named_self valid) fun name label found _ => closed.named name label found
      bare }
  | @permission space name label permission within valid untaken =>
    -- The space is looked up under its name as given, and declared spaces have trimmed names.
    have known : r.spaces.contains permission.id.space = true := by
      obtain ⟨known, found⟩ := Option.isSome_iff_exists.mp within
      obtain ⟨-, segment, -⟩ := Space.of?_ok_iff.mp (closed.named space.name known found)
      obtain ⟨outer, -⟩ := LabelledPermission.of?_ok_iff.mp valid
      rw [← outer, trim_of_isSegment segment]
      exact within
    exact { closed with
      declared := fun model listed found permission mem =>
        SortedMap.contains_insert.mpr (.inr (closed.declared model listed found permission mem))
      spaced := SortedMap.forall_insert (P := fun permission _ => r.spaces.contains permission.space = true)
        known fun permission label found _ => closed.spaced permission label found
      bare }
  | @register model permissions declared own =>
    refine { closed with declared := ?_, bare }
    refine SortedMap.forall_insert
      (P := fun _ known => ∀ permission ∈ known, r.labels.contains permission = true) ?_
      fun model known found _ => closed.declared model known found
    intro permission mem
    rcases SortedSet.mem_insertAll.mp mem with before | added
    -- A model that nothing was registered for begins with no permission.
    · cases found : r.applicable.get? model with
      | none =>
        rw [found] at before
        exact absurd before (SortedSet.not_mem_empty permission)
      | some known =>
        rw [found] at before
        exact closed.declared model known found permission before
    · exact declared permission added
  | @inherit model relation path read own =>
    refine { closed with once := ?_, bare }
    refine SortedMap.forall_insert (P := fun _ paths => paths.Nodup) ?_
      fun model paths found _ => closed.once model paths found
    have before : ((r.inheritance.get? model).getD []).Nodup := by
      cases found : r.inheritance.get? model with
      | none => exact List.nodup_nil
      | some paths => exact closed.once model paths found
    split
    · exact before
    · rename_i new
      rw [List.nodup_append]
      simp [before]
      rintro a mem rfl
      exact new mem
  | @standFor proxy base other direct bare' =>
    exact { closed with
      bare
      other := SortedMap.forall_insert (P := fun proxy base => proxy ≠ base) other
        fun proxy base found _ => closed.other proxy base found }

/-! ### The order of paths -/

/-- The path that a declaration declares for the model, if it is taken and declares one. -/
def declaredPath? (r : Registry) (model : Model) : Declaration → Option Path
  | .inherit model' relation =>
    if model' = model ∧ (r.inherit model' relation).toOption.isSome then (Path.parse relation).toOption
    else none
  | _ => none

/-- The paths that a run declares for the model, in its order and as often as it does. -/
def declaredPaths (r : Registry) (model : Model) : List Declaration → List Path
  | [] => []
  | declaration :: rest =>
    (r.declaredPath? model declaration).toList ++ declaredPaths (r.declareAll [declaration]) model rest

theorem eraseDups_concat {α : Type} [DecidableEq α] (as : List α) (a : α) :
    (as ++ [a]).eraseDups = if a ∈ as then as.eraseDups else as.eraseDups ++ [a] := by
  rw [List.eraseDups_append]
  by_cases mem : a ∈ as
  · simp [List.removeAll, mem]
  · simp [List.removeAll, mem, List.eraseDups_cons]

theorem Takes.inheritance_eq (takes : r.Takes declaration r') {earlier : List Path}
    (before : (r.inheritance.get? model).getD [] = earlier.eraseDups) :
    (r'.inheritance.get? model).getD [] =
      (earlier ++ (r.declaredPath? model declaration).toList).eraseDups := by
  have taken := declare_ok_iff.mpr takes
  cases takes with
  | @inherit model' relation path read own =>
    change r.inherit model' relation = _ at taken
    by_cases here : model = model'
    · subst here
      simp only [declaredPath?, taken, read, Except.toOption, Option.isSome_some, and_self, ↓reduceIte,
        Option.toList_some, SortedMap.get?_insert_self, Option.getD_some, eraseDups_concat, before,
        List.mem_eraseDups]
    · simp only [declaredPath?, Ne.symm here, false_and, ↓reduceIte, Option.toList_none, List.append_nil,
        SortedMap.get?_insert_of_ne _ here, before]
  | _ => simpa [declaredPath?] using before

theorem declaredPath?_of_refused (refused : ∀ r', ¬ r.Takes declaration r') :
    r.declaredPath? model declaration = none := by
  cases declaration with
  | inherit model' relation =>
    cases taken : r.inherit model' relation with
    | ok after => exact absurd (takes_of_inherit taken) (refused after)
    | error failure => simp [declaredPath?, taken, Except.toOption]
  | _ => rfl

theorem inheritance_eq (declarations : List Declaration) (earlier : List Path)
    (before : (r.inheritance.get? model).getD [] = earlier.eraseDups) :
    ((r.declareAll declarations).inheritance.get? model).getD [] =
      (earlier ++ r.declaredPaths model declarations).eraseDups := by
  induction declarations generalizing r earlier with
  | nil => simpa [declaredPaths, declareAll] using before
  | cons declaration rest ih =>
    rw [declaredPaths, ← List.append_assoc]
    refine ih (r := r.declareAll [declaration]) _ ?_
    rcases declareAll_concat_cases r [] declaration with takes | ⟨refused, same⟩
    · exact takes.inheritance_eq before
    · have nothing : r.declaredPath? model declaration = none := declaredPath?_of_refused refused
      rw [nothing, Option.toList_none, List.append_nil, ← before]
      exact congrArg (fun r : Registry => (r.inheritance.get? model).getD []) same

/-! ### Repeated declarations -/

/-- A declaration that was taken is taken again, and changes nothing. -/
theorem Takes.again (takes : r.Takes declaration r') : r'.Takes declaration r' := by
  cases takes with
  | @space name label space valid untaken =>
    have stored := SortedMap.get?_insert_self r.spaces space.name space.label
    have again := Takes.space (r := { r with spaces := r.spaces.insert space.name space.label }) valid
      fun known found => (Option.some.inj (stored.symm.trans found)).symm
    rwa [SortedMap.insert_insert] at again
  | @permission space name label permission within valid untaken =>
    have stored := SortedMap.get?_insert_self r.labels permission.id permission.label
    have again := Takes.permission (r := { r with labels := r.labels.insert permission.id permission.label })
      within valid fun known found => (Option.some.inj (stored.symm.trans found)).symm
    rwa [SortedMap.insert_insert] at again
  | @register model permissions declared own =>
    have again := Takes.register (r := { r with
      applicable := r.applicable.insert model
        (((r.applicable.get? model).getD ∅).insertAll permissions) }) declared own
    rwa [SortedMap.insert_insert, SortedMap.get?_insert_self, Option.getD_some,
      SortedSet.insertAll_insertAll] at again
  | @inherit model relation path read own =>
    generalize listed : (if path ∈ (r.inheritance.get? model).getD [] then (r.inheritance.get? model).getD []
      else (r.inheritance.get? model).getD [] ++ [path]) = paths
    have mem : path ∈ paths := by
      rw [← listed]
      split
      · assumption
      · simp
    have again := Takes.inherit (r := { r with inheritance := r.inheritance.insert model paths }) read own
    rwa [SortedMap.insert_insert, SortedMap.get?_insert_self, Option.getD_some, if_pos mem] at again
  | @standFor proxy base other direct bare =>
    have still : (r.proxies.insert proxy base).get? base = none := by
      rw [SortedMap.get?_insert_of_ne _ (Ne.symm other)]
      exact direct
    have again := Takes.standFor (r := { r with proxies := r.proxies.insert proxy base }) other still bare
    rwa [SortedMap.insert_insert] at again

/-! ### Every run -/

theorem perform_apply (declaration : Declaration) (r : Registry) : perform declaration r =
    match r.declare declaration with
    | .ok after => (.ok (), after)
    | .error failure => (.error failure, r) := by
  rw [perform_eq, Attempt.advance_apply]
  cases r.declare declaration <;> rfl

theorem perform_ok_iff {after : Registry} :
    perform declaration r = (.ok (), after) ↔ r.Takes declaration after := by
  rw [perform_apply, ← declare_ok_iff]
  cases r.declare declaration <;> simp

/-- After any run of declarations the registry refers to nothing that is not declared, and its paths
stand in the order in which the run declared them first. One more declaration leaves the registry alone
if it fails on its way, and changes nothing when it is repeated. -/
theorem declareAll_closed (declarations : List Declaration) (declaration : Declaration) :
    (declareAll ∅ declarations).Closed ∧
    (∀ model, ((declareAll ∅ declarations).inheritance.get? model).getD [] =
      (declaredPaths ∅ model declarations).eraseDups) ∧
    (perform declaration (declareAll ∅ declarations)).2 = declareAll ∅ (declarations ++ [declaration]) ∧
    (∀ failure after, perform declaration (declareAll ∅ declarations) = (.error failure, after) →
      after = declareAll ∅ declarations) ∧
    ∀ after, perform declaration (declareAll ∅ declarations) = (.ok (), after) →
      perform declaration after = (.ok (), after) := by
  refine ⟨?_, fun model => ?_, ?_, fun failure after failed => ?_, fun after taken => ?_⟩
  · exact declareAll_induct closed_empty (fun _ _ _ closed takes => takes.closed closed) declarations
  · exact inheritance_eq declarations [] rfl
  · rw [perform_apply, declareAll_concat]
    cases (declareAll ∅ declarations).declare declaration <;> rfl
  · rw [perform_apply] at failed
    cases tried : (declareAll ∅ declarations).declare declaration with
    | ok after =>
      rw [tried] at failed
      cases failed
    | error failure =>
      rw [tried] at failed
      cases failed
      rfl
  · exact perform_ok_iff.mpr (perform_ok_iff.mp taken).again

end Registry

/-! ### A run with a repeated path -/

namespace Sample

/-- The paths of a shelf are declared one after another, the first of them twice. -/
def furnished : List Registry.Declaration :=
  shelved ++ [.inherit shelf "hall", .inherit shelf " room "]

end Sample

namespace Registry

open Sample

/-- To register something for the binder fails, and to declare one more path twice is to declare it
once. -/
theorem declareAll_closed_when_furnished :
    ((declareAll ∅ furnished).inheritance.get? shelf).getD [] = (declaredPaths ∅ shelf furnished).eraseDups ∧
      (declaredPaths ∅ shelf furnished).map Path.hops = [["room"], ["hall"], ["room"]] ∧
      perform (.register binder [borrow]) (declareAll ∅ furnished) =
        (.error (.registeredOnProxy binder shelf), declareAll ∅ furnished) ∧
      declareAll ∅ (furnished ++ [.register binder [borrow]]) = declareAll ∅ furnished ∧
      perform (.inherit shelf "attic") (declareAll ∅ (furnished ++ [.inherit shelf "attic"])) =
        (.ok (), declareAll ∅ (furnished ++ [.inherit shelf "attic"])) := by
  have failed : perform (.register binder [borrow]) (declareAll ∅ furnished) =
      (.error (.registeredOnProxy binder shelf), declareAll ∅ furnished) := by decide +kernel
  have taken : perform (.inherit shelf "attic") (declareAll ∅ furnished) =
      (.ok (), declareAll ∅ (furnished ++ [.inherit shelf "attic"])) := by decide +kernel
  obtain ⟨-, order, run, -, -⟩ := declareAll_closed furnished (.register binder [borrow])
  obtain ⟨-, -, -, -, again⟩ := declareAll_closed furnished (.inherit shelf "attic")
  refine ⟨order shelf, by decide +kernel, failed, ?_, again _ taken⟩
  rw [← run, failed]

end Registry

end Entitlement
