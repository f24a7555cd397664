import Entitlement.Condition.Walk

/-!
# Witnesses of access

A witness is a way along declared paths from an object to objects that it inherits entries from,
with grants along it that give access. `Witness.exists_nodup` takes the loops out of a witness.
-/

namespace Entitlement

/-! ### Relation graphs -/

/-- From objects of registered models every relation can be followed, and leads to such objects
only. -/
def Relations.Grounded (relations : Relations) (registry : Registry) : Prop :=
  ∀ object, registry.isRegistered object.model = true → ∀ relation,
    ∃ next, relations object relation = .ok next ∧
      ∀ parent ∈ next, registry.isRegistered parent.model = true

variable {registry : Registry} {relations : Relations}

theorem pathsOf_of_isRegistered {model : Model} (registered : registry.isRegistered model = true) :
    ∃ paths, registry.pathsOf model = .ok paths := by
  simp only [Registry.isRegistered, Bool.or_eq_true] at registered
  unfold Registry.pathsOf
  cases found : registry.inheritance.get? (registry.base model) with
  | some paths => exact ⟨paths, rfl⟩
  | none =>
    rcases registered with applicable | inherited
    · exact ⟨[], by simp [applicable]⟩
    · simp [SortedMap.contains, found] at inherited

theorem eq_nil_or_mem_of_pathsOf {model : Model} {paths : List Path}
    (h : registry.pathsOf model = .ok paths) : paths = [] ∨ paths ∈ registry.inheritance.values := by
  unfold Registry.pathsOf at h
  split at h
  · rename_i found
    cases h
    exact .inr (SortedMap.mem_values_iff.mpr ⟨_, found⟩)
  · split at h
    · cases h
      exact .inl rfl
    · cases h

theorem follow_grounded (grounded : relations.Grounded registry) {object : Object}
    (registered : registry.isRegistered object.model = true) (hops : List String) :
    ∃ next, relations.follow object hops = .ok next ∧
      ∀ parent ∈ next, registry.isRegistered parent.model = true := by
  induction hops generalizing object with
  | nil =>
    refine ⟨some object, rfl, fun parent mem => ?_⟩
    cases mem
    exact registered
  | cons hop rest ih =>
    obtain ⟨next, led, sound⟩ := grounded object registered hop
    cases next with
    | none => exact ⟨none, by simp [Relations.follow, led, bind, Except.bind]; rfl, by simp⟩
    | some parent =>
      obtain ⟨last, reached, kept⟩ := ih (sound parent rfl)
      refine ⟨last, ?_, kept⟩
      simpa [Relations.follow, led, bind, Except.bind] using reached

/-! ### Ways and witnesses -/

variable (registry relations)

/-- A declared path leads from the child to the parent. -/
def IsParent (child parent : Object) : Prop :=
  ∃ paths, registry.pathsOf child.model = .ok paths ∧
    ∃ path ∈ paths, relations.follow child path.hops = .ok (some parent)

/-- No path is declared for the object's model. -/
def IsTopmost (object : Object) : Prop := registry.pathsOf object.model = .ok []

variable (granted : Object → Prop)

/-- Granted objects from parent to parent, up to a topmost one. -/
inductive Confirmed : List Object → Prop
  | topmost {object : Object} : granted object → IsTopmost registry object → Confirmed [object]
  | parent {object parent : Object} {rest : List Object} : granted object →
      IsParent registry relations object parent → Confirmed (parent :: rest) →
      Confirmed (object :: parent :: rest)

/-- The objects after the first one on a way that gives access to it: none if it is granted itself,
its parent if that is granted, or its parent and above it only granted objects up to a topmost
one. -/
inductive Witness (object : Object) : List Object → Prop
  | own : granted object → Witness object []
  | parent {parent : Object} : IsParent registry relations object parent → granted parent →
      Witness object [parent]
  | above {parent next : Object} {rest : List Object} : IsParent registry relations object parent →
      IsParent registry relations parent next →
      Confirmed registry relations granted (next :: rest) → Witness object (parent :: next :: rest)

variable {registry relations granted}

namespace Confirmed

theorem granted_of_mem {way : List Object} (h : Confirmed registry relations granted way)
    {object : Object} (mem : object ∈ way) : granted object := by
  induction h with
  | topmost held _ =>
    rw [List.mem_singleton.mp mem]
    exact held
  | parent held _ _ ih =>
    rcases List.mem_cons.mp mem with same | above
    · rw [same]
      exact held
    · exact ih above

/-- A confirmed way can be entered at any of its objects. -/
theorem of_append {before rest : List Object} {object : Object}
    (h : Confirmed registry relations granted (before ++ object :: rest)) :
    Confirmed registry relations granted (object :: rest) := by
  induction before with
  | nil => exact h
  | cons first before ih =>
    apply ih
    generalize same : before ++ object :: rest = above at h
    rw [List.cons_append, same] at h
    cases h with
    | topmost _ _ => simp at same
    | parent _ _ confirmed => exact confirmed

theorem exists_nodup {object : Object} {rest : List Object}
    (h : Confirmed registry relations granted (object :: rest)) :
    ∃ rest', Confirmed registry relations granted (object :: rest') ∧ (object :: rest').Nodup ∧
      rest'.length ≤ rest.length := by
  induction rest generalizing object with
  | nil => exact ⟨[], h, by simp, Nat.le_refl _⟩
  | cons parent rest ih =>
    cases h with
    | parent held leads confirmed =>
      obtain ⟨rest', shorter, distinct, bound⟩ := ih confirmed
      by_cases mem : object ∈ parent :: rest'
      · -- The way comes back to the object: it is entered there again, and the loop left out.
        obtain ⟨before, last, same⟩ := List.append_of_mem mem
        rw [same] at shorter distinct
        refine ⟨last, shorter.of_append, (List.nodup_append.mp distinct).2.1, ?_⟩
        have := congrArg List.length same
        simp only [List.length_cons, List.length_append] at this ⊢
        omega
      · exact ⟨parent :: rest', .parent held leads shorter, List.nodup_cons.mpr ⟨mem, distinct⟩,
          Nat.succ_le_succ bound⟩

end Confirmed

namespace Witness

theorem of_confirmed {object next : Object} {rest : List Object}
    (leads : IsParent registry relations object next)
    (confirmed : Confirmed registry relations granted (next :: rest)) :
    Witness registry relations granted object (next :: rest) := by
  cases confirmed with
  | topmost held _ => exact .parent leads held
  | parent _ above confirmed => exact .above leads above confirmed

/-- Whoever has a witness has one that passes no object twice and is no longer. -/
theorem exists_nodup {object : Object} {way : List Object}
    (h : Witness registry relations granted object way) :
    ∃ way', Witness registry relations granted object way' ∧ (object :: way').Nodup ∧
      way'.length ≤ way.length := by
  cases h with
  | own held => exact ⟨[], .own held, by simp, Nat.le_refl _⟩
  | @parent parent leads held =>
    by_cases same : object = parent
    · exact ⟨[], .own (same ▸ held), by simp, Nat.zero_le _⟩
    · exact ⟨[parent], .parent leads held, by simp [same], Nat.le_refl _⟩
  | @above parent next rest leads onwards confirmed =>
    obtain ⟨rest', confirmed, distinct, bound⟩ := confirmed.exists_nodup
    -- Whatever is confirmed is granted, so an object met again needs no more than itself.
    by_cases again : object ∈ next :: rest'
    · exact ⟨[], .own (confirmed.granted_of_mem again), by simp, Nat.zero_le _⟩
    by_cases same : object = parent
    · subst same
      exact ⟨next :: rest', of_confirmed onwards confirmed, List.nodup_cons.mpr ⟨again, distinct⟩,
        by simp only [List.length_cons]; omega⟩
    by_cases passed : parent ∈ next :: rest'
    · exact ⟨[parent], .parent leads (confirmed.granted_of_mem passed), by simp [same], by simp⟩
    · exact ⟨parent :: next :: rest', .above leads onwards confirmed,
        List.nodup_cons.mpr ⟨by simp_all, List.nodup_cons.mpr ⟨passed, distinct⟩⟩,
        by simp only [List.length_cons]; omega⟩

end Witness

/-! ### The order of paths -/

/-- Every model has the same paths declared, if in another order. -/
def Registry.Reorders (registry registry' : Registry) : Prop :=
  ∀ model paths, registry.pathsOf model = .ok paths →
    ∃ paths', registry'.pathsOf model = .ok paths' ∧ paths.Perm paths'

theorem Registry.reorders_insert {inheritance : SortedMap Model (List Path)} {model : Model}
    {paths paths' : List Path} (perm : paths.Perm paths')
    (stored : registry.inheritance = inheritance.insert model paths) :
    registry.Reorders { registry with inheritance := inheritance.insert model paths' } := by
  intro other found declared
  simp only [Registry.pathsOf, stored, SortedMap.get?_insert] at declared ⊢
  by_cases same : registry.base other = model
  · rw [Registry.base] at same
    simp only [Registry.base, same, if_true] at declared ⊢
    cases declared
    exact ⟨paths', rfl, perm⟩
  · rw [Registry.base] at same
    simp only [Registry.base, same, if_false] at declared ⊢
    exact ⟨found, declared, .refl _⟩

section Reorders

variable {registry' : Registry} (reorders : registry.Reorders registry')

include reorders

theorem IsParent.reordered {child parent : Object} (h : IsParent registry relations child parent) :
    IsParent registry' relations child parent := by
  obtain ⟨paths, declared, path, mem, led⟩ := h
  obtain ⟨paths', declared', perm⟩ := reorders _ paths declared
  exact ⟨paths', declared', path, perm.mem_iff.mp mem, led⟩

theorem IsTopmost.reordered {object : Object} (h : IsTopmost registry object) :
    IsTopmost registry' object := by
  obtain ⟨paths', declared', perm⟩ := reorders _ [] h
  rw [IsTopmost, declared', List.nil_perm.mp perm]

theorem Confirmed.reordered {way : List Object} (h : Confirmed registry relations granted way) :
    Confirmed registry' relations granted way := by
  induction h with
  | topmost held top => exact .topmost held (top.reordered reorders)
  | parent held leads _ ih => exact .parent held (leads.reordered reorders) ih

/-- What a witness is does not depend on the order in which paths are declared. -/
theorem Witness.reordered {object : Object} {way : List Object}
    (h : Witness registry relations granted object way) :
    Witness registry' relations granted object way := by
  cases h with
  | own held => exact .own held
  | parent leads held => exact .parent (leads.reordered reorders) held
  | above leads onwards confirmed =>
    exact .above (leads.reordered reorders) (onwards.reordered reorders) (confirmed.reordered reorders)

end Reorders

end Entitlement
