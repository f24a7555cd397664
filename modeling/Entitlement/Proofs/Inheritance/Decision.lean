import Entitlement.Proofs.Inheritance.Visit

/-!
# Which ways give access

`ofObjectWith_holds_iff` says for which witnesses the condition on an object holds: for those that are
no longer than `maxDepth`, and for those that the walk leaves for its notes.
-/

namespace Entitlement.Condition

open Walk

variable {reuse : Bool} {registry : Registry} {relations : Relations} {start : Object}
  {grants : SortedSet Object}

/-! ### What holds has a confirmed way -/

theorem sound_each {room : Nat} {object : Object} {walk last : Walk} {paths : List Path}
    {expansions : List Expansion}
    (sound : ∀ {w w' : Walk} {next : Option Object} {e : Expansion},
      Visits reuse registry relations start room w next →
      expandWith reuse registry relations room w next = .ok (e, w') →
      (Condition.all e.conditions).holds grants = true →
      ∃ parent rest, next = some parent ∧
        Confirmed registry relations (· ∈ grants) (parent :: rest) ∧
        Covers reuse registry relations start room w.chain (parent :: rest))
    (visits : ∀ {before path after first middle next}, paths = before ++ path :: after →
      expandEach (expandPath reuse registry relations room object) walk before = .ok (first, middle) →
      relations.follow object path.hops = .ok next →
      Visits reuse registry relations start room middle next)
    (notes : NotesUnfold registry relations walk)
    (declared : registry.pathsOf object.model = .ok paths)
    (expanded : expandEach (expandPath reuse registry relations room object) walk paths =
      .ok (expansions, last))
    (holds : ∃ e ∈ expansions, (Condition.all e.conditions).holds grants = true) :
    ∃ parent rest, IsParent registry relations object parent ∧
      Confirmed registry relations (· ∈ grants) (parent :: rest) ∧
      Covers reuse registry relations start room walk.chain (parent :: rest) := by
  obtain ⟨e, mem, holds⟩ := holds
  obtain ⟨before, path, after, first, middle, w', rfl, prior, stepped⟩ :=
    exists_path_of_mem expanded mem
  obtain ⟨next, led, stepped⟩ := expandPath_ok stepped
  have visit := visits rfl prior led
  obtain ⟨parent, rest, rfl, confirmed, covered⟩ := sound visit stepped holds
  rw [(expandEach_entered notes prior).1] at covered
  exact ⟨parent, rest, ⟨_, declared, path, by simp, led⟩, confirmed, covered⟩

/-- If all conditions of a visit hold, a confirmed way starts where the path has led. -/
theorem all_sound {room : Nat} {walk last : Walk} {next : Option Object} {e : Expansion}
    (visit : Visits reuse registry relations start room walk next)
    (h : expandWith reuse registry relations room walk next = .ok (e, last))
    (holds : (Condition.all e.conditions).holds grants = true) :
    ∃ object rest, next = some object ∧
      Confirmed registry relations (· ∈ grants) (object :: rest) ∧
      Covers reuse registry relations start room walk.chain (object :: rest) := by
  induction room generalizing walk last next e with
  | zero => cases next <;> cases h <;> cases holds
  | succ room ih =>
    cases next with
    | none =>
      cases h
      cases holds
    | some object =>
      rcases expandWith_cases h with ⟨_, rfl, _⟩ | ⟨_, conditions, same, fresh, known, rfl, _⟩ |
        ⟨_, paths, expansions, middle, same, fresh, unknown, declared, expanded, rfl, _⟩
      · cases holds
      · -- The notes say that a way is confirmed, but not how long it is: here the walk leaves it.
        obtain ⟨_, rest, found, confirmed⟩ := (visit.notes.of_fromNotes known).all_holds_iff.mp holds
        obtain rfl := Option.some.inj found
        exact ⟨object, rest, rfl, confirmed, .inr ⟨[], object, rest, room, walk, conditions, rfl, visit,
          rfl, fresh, known⟩⟩
      · obtain rfl := Nat.succ.inj same
        obtain ⟨held, none | some⟩ := all_conditionsOf_holds.mp holds
        · subst none
          have top : paths = [] := by
            cases paths with
            | nil => rfl
            | cons path rest =>
              obtain ⟨_, _, _, _, _, impossible⟩ := expandEach_cons expanded
              cases impossible
          subst top
          exact ⟨object, [], rfl, .topmost held declared, .inl (by simp)⟩
        · obtain ⟨parent, rest, leads, confirmed, covered⟩ := sound_each ih
            (fun same prior led => .above visit fresh unknown (same ▸ declared) prior led)
            (notesUnfold_enter visit.notes object) declared expanded some
          exact ⟨object, parent :: rest, rfl, .parent held leads confirmed, covered.cons⟩

/-- If one condition of a visit holds, the object that the path has led to is granted or has a parent
from which a confirmed way starts. -/
theorem any_sound {room : Nat} {walk last : Walk} {next : Option Object} {e : Expansion}
    (visit : Visits reuse registry relations start room walk next)
    (h : expandWith reuse registry relations room walk next = .ok (e, last))
    (holds : (Condition.any e.conditions).holds grants = true) :
    ∃ object, next = some object ∧ (object ∈ grants ∨ ∃ parent rest,
      IsParent registry relations object parent ∧
      Confirmed registry relations (· ∈ grants) (parent :: rest) ∧
      Covers reuse registry relations start room walk.chain (object :: parent :: rest)) := by
  cases next with
  | none => cases room <;> cases h <;> cases holds
  | some object =>
    refine ⟨object, rfl, ?_⟩
    rcases expandWith_cases h with ⟨_, rfl, _⟩ | ⟨room, conditions, rfl, fresh, known, rfl, _⟩ |
      ⟨room, paths, expansions, middle, rfl, fresh, unknown, declared, expanded, rfl, _⟩
    · cases holds
    · rcases (visit.notes.of_fromNotes known).any_holds_iff.mp holds with held | ⟨parent, rest, leads, confirmed⟩
      · exact .inl held
      · exact .inr ⟨parent, rest, leads, confirmed, .inr ⟨[], object, parent :: rest, room, walk,
          conditions, rfl, visit, rfl, fresh, known⟩⟩
    · rcases any_conditionsOf_holds.mp holds with held | above
      · exact .inl held
      · obtain ⟨parent, rest, leads, confirmed, covered⟩ := sound_each all_sound
          (fun same prior led => .above visit fresh unknown (same ▸ declared) prior led)
          (notesUnfold_enter visit.notes object) declared expanded above
        exact .inr ⟨parent, rest, leads, confirmed, covered.cons⟩

/-! ### Short ways without loops are found -/

theorem complete_each {room : Nat} {object parent : Object} {walk last : Walk} {paths : List Path}
    {expansions : List Expansion} {P : Expansion → Prop}
    (complete : ∀ {w w' : Walk} {e : Expansion}, NotesUnfold registry relations w →
      w.chain = walk.chain → expandWith reuse registry relations room w (some parent) = .ok (e, w') → P e)
    (notes : NotesUnfold registry relations walk)
    (declared : registry.pathsOf object.model = .ok paths)
    (expanded : expandEach (expandPath reuse registry relations room object) walk paths =
      .ok (expansions, last))
    (leads : IsParent registry relations object parent) : ∃ e ∈ expansions, P e := by
  obtain ⟨_, found, path, mem, led⟩ := leads
  cases declared.symm.trans found
  obtain ⟨before, after, rfl⟩ := List.append_of_mem mem
  obtain ⟨first, middle, e, w', prior, stepped, among⟩ := expandEach_split expanded
  obtain ⟨next, led', stepped⟩ := expandPath_ok stepped
  cases led.symm.trans led'
  obtain ⟨chain, notes'⟩ := expandEach_entered notes prior
  exact ⟨e, among, complete notes' chain stepped⟩

theorem apart_above {object : Object} {chain way : List Object} (unmet : object ∉ way)
    (apart : ∀ o ∈ object :: way, o ∉ chain) : ∀ o ∈ way, o ∉ object :: chain := by
  intro o mem among
  rcases List.mem_cons.mp among with rfl | among
  · exact unmet mem
  · exact apart o (List.mem_cons_of_mem _ mem) among

/-- All conditions of an object hold if a confirmed way that starts at it fits into the room and meets
neither itself nor the chain. -/
theorem all_complete {room : Nat} {walk last : Walk} {object : Object} {rest : List Object}
    {e : Expansion} (notes : NotesUnfold registry relations walk)
    (h : expandWith reuse registry relations room walk (some object) = .ok (e, last))
    (confirmed : Confirmed registry relations (· ∈ grants) (object :: rest))
    (distinct : (object :: rest).Nodup) (apart : ∀ o ∈ object :: rest, o ∉ walk.chain)
    (short : (object :: rest).length ≤ room) : (Condition.all e.conditions).holds grants = true := by
  -- The way shrinks with the room, and what it has left behind is the chain that it stays clear of.
  induction room generalizing walk last object rest e with
  | zero => simp at short
  | succ room ih =>
    rcases expandWith_cases_of_fresh (apart object List.mem_cons_self) h with
      ⟨conditions, known, same⟩ | ⟨paths, expansions, middle, _, declared, expanded, same⟩
    · rw [same]
      exact (notes.of_fromNotes known).all_holds_iff.mpr ⟨object, rest, rfl, confirmed⟩
    · rw [same, all_conditionsOf_holds]
      refine ⟨confirmed.granted_of_mem List.mem_cons_self, ?_⟩
      cases confirmed with
      | topmost _ top =>
        cases declared.symm.trans top
        cases expanded
        exact .inl rfl
      | @parent _ parent rest _ leads confirmed =>
        obtain ⟨unmet, distinct⟩ := List.nodup_cons.mp distinct
        refine .inr (complete_each ?_ (notesUnfold_enter notes object) declared expanded leads)
        intro w w' e notes' chain stepped
        exact ih notes' stepped confirmed distinct (chain ▸ apart_above unmet apart)
          (Nat.le_of_succ_le_succ short)

/-- One condition of an object holds if it is granted. -/
theorem any_of_granted {room : Nat} {walk last : Walk} {object : Object} {e : Expansion}
    (notes : NotesUnfold registry relations walk)
    (h : expandWith reuse registry relations (room + 1) walk (some object) = .ok (e, last))
    (fresh : object ∉ walk.chain) (held : object ∈ grants) :
    (Condition.any e.conditions).holds grants = true := by
  rcases expandWith_cases_of_fresh fresh h with
    ⟨conditions, known, same⟩ | ⟨paths, expansions, middle, _, declared, expanded, same⟩
  · rw [same]
    exact (notes.of_fromNotes known).any_holds_iff.mpr (.inl held)
  · rw [same]
    exact any_conditionsOf_holds.mpr (.inl held)

/-- One condition of an object holds if a confirmed way that starts at a parent of it fits into the
room and meets neither itself, nor the object, nor the chain. -/
theorem any_complete {room : Nat} {walk last : Walk} {object parent : Object} {rest : List Object}
    {e : Expansion} (notes : NotesUnfold registry relations walk)
    (h : expandWith reuse registry relations (room + 1) walk (some object) = .ok (e, last))
    (leads : IsParent registry relations object parent)
    (confirmed : Confirmed registry relations (· ∈ grants) (parent :: rest))
    (distinct : (object :: parent :: rest).Nodup)
    (apart : ∀ o ∈ object :: parent :: rest, o ∉ walk.chain)
    (short : (parent :: rest).length ≤ room) :
    (Condition.any e.conditions).holds grants = true := by
  obtain ⟨unmet, distinct⟩ := List.nodup_cons.mp distinct
  rcases expandWith_cases_of_fresh (apart object List.mem_cons_self) h with
    ⟨conditions, known, same⟩ | ⟨paths, expansions, middle, _, declared, expanded, same⟩
  · rw [same]
    exact (notes.of_fromNotes known).any_holds_iff.mpr (.inr ⟨parent, rest, leads, confirmed⟩)
  · rw [same]
    refine any_conditionsOf_holds.mpr (.inr
      (complete_each ?_ (notesUnfold_enter notes object) declared expanded leads))
    intro w w' e notes' chain stepped
    exact all_complete notes' stepped confirmed distinct (chain ▸ apart_above unmet apart) short

/-! ### The condition on an object -/

/-- As `ofObject`, but the notes are taken into account only if `reuse` says so. -/
def ofObjectWith (reuse : Bool) (registry : Registry) (relations : Relations) (object : Object) :
    Except Failure Condition := do
  let paths ← registry.pathsOf object.model
  let (expansions, _) ← Walk.expandEach (expandPath reuse registry relations maxDepth object)
    { chain := [object] } paths
  let parents := expansions.map fun expansion => .any expansion.conditions
  return .any (.granted object :: if parents.isEmpty then [] else [.any parents])

theorem ofObjectWith_true : ofObjectWith true registry relations = ofObject registry relations := by
  funext object
  unfold ofObjectWith ofObject expandPath
  rw [expandWith_true]

theorem ofObjectWith_ok {condition : Condition}
    (h : ofObjectWith reuse registry relations start = .ok condition) :
    ∃ paths expansions last, registry.pathsOf start.model = .ok paths ∧
      expandEach (expandPath reuse registry relations maxDepth start) { chain := [start] } paths =
        .ok (expansions, last) ∧
      ∀ grants, condition.holds grants = true ↔ start ∈ grants ∨
        ∃ e ∈ expansions, (Condition.any e.conditions).holds grants = true := by
  obtain ⟨paths, declared, h⟩ := bind_ok h
  obtain ⟨⟨expansions, last⟩, expanded, h⟩ := bind_ok h
  cases h
  refine ⟨paths, expansions, last, declared, expanded, fun grants => ?_⟩
  cases expansions with
  | nil => simp [Condition.holds, SortedSet.mem_iff, anyHolds_eq_any]
  | cons e rest => simp [Condition.holds, SortedSet.mem_iff, anyHolds_eq_any]

theorem ofObjectWith_total (grounded : relations.Grounded registry)
    (known : registry.isRegistered start.model = true) :
    ∃ condition, ofObjectWith reuse registry relations start = .ok condition := by
  obtain ⟨paths, declared⟩ := pathsOf_of_isRegistered known
  have step : ∀ walk next, (∀ parent ∈ next, registry.isRegistered parent.model = true) →
      ∃ result, expandWith reuse registry relations maxDepth walk next = .ok result :=
    expandWith_total grounded maxDepth
  obtain ⟨⟨expansions, last⟩, expanded⟩ :=
    expandEach_total (expandPath_total grounded known step) { chain := [start] } paths
  unfold ofObjectWith
  simp only [declared, expanded, bind, Except.bind]
  exact ⟨_, rfl⟩

/-! ### Ways that are left for the notes -/

/-- What a visit finds counts for the start: one condition, right above the start, and all conditions,
further up, if the objects between are granted. The room and the notes do not matter for that. -/
theorem holds_of_visit (grants : SortedSet Object) (grounded : relations.Grounded registry)
    (known : registry.isRegistered start.model = true) {condition : Condition}
    (built : ofObjectWith reuse registry relations start = .ok condition)
    {room : Nat} {walk last : Walk} {next : Option Object} {e : Expansion}
    (visit : Visits reuse registry relations start room walk next)
    (h : expandWith reuse registry relations room walk next = .ok (e, last)) :
    (walk.chain = [start] → (Condition.any e.conditions).holds grants = true →
      condition.holds grants = true) ∧
    (∀ above parent, walk.chain = above ++ [parent, start] → (∀ o ∈ above, o ∈ grants) →
      (Condition.all e.conditions).holds grants = true → condition.holds grants = true) := by
  -- The induction goes down the calls: what holds here makes a condition of the call below hold.
  induction visit generalizing last e with
  | @first before after path prior walk next declared expanded led =>
    obtain ⟨_, expansions, _, declared', expanded', holds_iff⟩ := ofObjectWith_ok built
    cases declared.symm.trans declared'
    have among := mem_of_expandPath expanded' expanded led h
    refine ⟨fun _ holds => (holds_iff grants).mpr (.inr ⟨e, among, holds⟩), ?_⟩
    intro above parent chain
    have lengths := congrArg List.length ((Visits.chain_first expanded).symm.trans chain)
    simp at lengths
  | @above room walk middle object before after path prior next visit fresh unknown declared expanded led ih =>
    have returns : ∃ result, expandWith reuse registry relations (room + 1) walk (some object) =
        .ok result :=
      expandWith_total grounded (room + 1) walk (some object) (visit.registered grounded known)
    obtain ⟨⟨e', last'⟩, called⟩ := returns
    obtain ⟨onParent, onAncestor⟩ := ih called
    rcases expandWith_cases_of_fresh fresh called with
      ⟨_, known', _⟩ | ⟨paths, expansions, _, _, declared', expanded', same⟩
    · cases unknown.symm.trans known'
    cases declared.symm.trans declared'
    have among := mem_of_expandPath expanded' expanded led h
    rw [same] at onParent onAncestor
    rw [Visits.chain_above visit expanded]
    constructor
    · intro chain
      exact absurd (List.cons.inj chain).2 visit.chain_ne_nil
    · intro above parent chain held holds
      cases above with
      | nil =>
        obtain ⟨_, below⟩ := List.cons.inj chain
        exact onParent below (any_conditionsOf_holds.mpr (.inr ⟨e, among, holds⟩))
      | cons first above =>
        obtain ⟨rfl, below⟩ := List.cons.inj chain
        exact onAncestor above parent below (fun o mem => held o (List.mem_cons_of_mem _ mem))
          (all_conditionsOf_holds.mpr ⟨held object List.mem_cons_self, .inr ⟨e, among, holds⟩⟩)

/-- A witness that the walk leaves for its notes gives access. -/
theorem holds_of_leavesForNotes (grounded : relations.Grounded registry)
    (known : registry.isRegistered start.model = true) {condition : Condition}
    (built : ofObjectWith reuse registry relations start = .ok condition) {way : List Object}
    (witness : Witness registry relations (· ∈ grants) start way)
    (leaves : LeavesForNotes reuse registry relations start [start] way) :
    condition.holds grants = true := by
  obtain ⟨before, object, after, room, walk, conditions, rfl, visit, chain, fresh, noted⟩ := leaves
  have taken : expandWith reuse registry relations (room + 1) walk (some object) =
      .ok (⟨conditions, false⟩, walk) := by
    rw [expandWith_succ, if_neg fresh, noted]
  have unfolds := visit.notes.of_fromNotes noted
  obtain ⟨onParent, onAncestor⟩ := holds_of_visit grants grounded known built visit taken
  cases before with
  | nil =>
    apply onParent chain
    cases witness with
    | parent _ held => exact unfolds.any_holds_iff.mpr (.inl held)
    | above _ leads confirmed => exact unfolds.any_holds_iff.mpr (.inr ⟨_, _, leads, confirmed⟩)
  | cons parent between =>
    have confirmed : Confirmed registry relations (· ∈ grants) (between ++ object :: after) := by
      generalize same : between ++ object :: after = rest at witness
      rw [List.cons_append, same] at witness
      cases witness with
      | parent _ _ => simp at same
      | above _ _ confirmed => exact confirmed
    apply onAncestor between.reverse parent
    · simpa using chain
    · intro o mem
      exact confirmed.granted_of_mem (List.mem_append_left _ (List.mem_reverse.mp mem))
    · exact unfolds.all_holds_iff.mpr ⟨object, after, rfl, confirmed.of_append⟩

/-! ### Exactly which ways -/

/-- A witness gives access if it fits into the depth that a walk follows. -/
theorem holds_of_short {condition : Condition}
    (built : ofObjectWith reuse registry relations start = .ok condition) {way : List Object}
    (witness : Witness registry relations (· ∈ grants) start way) (short : way.length ≤ maxDepth) :
    condition.holds grants = true := by
  obtain ⟨paths, expansions, _, declared, expanded, holds_iff⟩ := ofObjectWith_ok built
  obtain ⟨way, witness, distinct, bound⟩ := witness.exists_nodup
  obtain ⟨unmet, distinct⟩ := List.nodup_cons.mp distinct
  have apart : ∀ o ∈ way, o ∉ [start] := by
    intro o mem among
    exact unmet (List.mem_singleton.mp among ▸ mem)
  rw [holds_iff]
  cases witness with
  | own held => exact .inl held
  | @parent parent leads held =>
    refine .inr (complete_each ?_ (notesUnfold_empty _) declared expanded leads)
    intro w w' e notes chain stepped
    exact any_of_granted notes stepped (chain ▸ apart parent List.mem_cons_self) held
  | above leads onwards confirmed =>
    refine .inr (complete_each ?_ (notesUnfold_empty _) declared expanded leads)
    intro w w' e notes chain stepped
    exact any_complete notes stepped onwards confirmed distinct (chain ▸ apart)
      (Nat.le_of_succ_le_succ (Nat.le_trans bound short))

/-- The condition on an object holds exactly if some witness for the object fits into the depth that a
walk follows or is left by the walk for its notes. -/
theorem ofObjectWith_holds_iff (reuse : Bool) (grounded : relations.Grounded registry)
    (known : registry.isRegistered start.model = true) :
    ∃ condition, ofObjectWith reuse registry relations start = .ok condition ∧
      ∀ grants, condition.holds grants = true ↔
        ∃ way, Witness registry relations (· ∈ grants) start way ∧
          Covers reuse registry relations start maxDepth [start] way := by
  have built : ∃ condition, ofObjectWith reuse registry relations start = .ok condition :=
    ofObjectWith_total grounded known
  obtain ⟨condition, built⟩ := built
  refine ⟨condition, built, fun grants => ⟨fun holds => ?_, ?_⟩⟩
  · obtain ⟨paths, expansions, _, declared, expanded, holds_iff⟩ := ofObjectWith_ok built
    rcases (holds_iff grants).mp holds with held | ⟨e, mem, holds⟩
    · exact ⟨[], .own held, .inl (Nat.zero_le _)⟩
    · obtain ⟨before, path, after, first, middle, w', rfl, prior, stepped⟩ :=
        exists_path_of_mem expanded mem
      obtain ⟨next, led, stepped⟩ := expandPath_ok stepped
      have visit : Visits reuse registry relations start maxDepth middle next :=
        .first declared prior led
      obtain ⟨object, rfl, held | ⟨parent, rest, onwards, confirmed, covered⟩⟩ :=
        any_sound visit stepped holds
      · exact ⟨[object], .parent ⟨_, declared, path, by simp, led⟩ held, .inl (Nat.le_add_left 1 31)⟩
      · rw [Visits.chain_first prior] at covered
        exact ⟨object :: parent :: rest, .above ⟨_, declared, path, by simp, led⟩ onwards confirmed,
          covered⟩
  · rintro ⟨way, witness, short | leaves⟩
    · exact holds_of_short built witness short
    · exact holds_of_leavesForNotes grounded known built witness leaves

end Entitlement.Condition
