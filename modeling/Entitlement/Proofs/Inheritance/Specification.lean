import Entitlement.Proofs.Inheritance.Decision

/-!
# Conditions as specified

`Specifies` are the equations for the conditions of all objects above a given one: each with its own
paths, and no mention of chains, notes or an early end. Where nothing above an object stops a walk
(`Passable`), they have a solution (`specifies_aboveUpTo`), and the condition that the walk builds is the
one that every solution gives (`ofObject_specified`).
-/

namespace Entitlement

open Condition Condition.Walk
open Relation (ReflTransGen TransGen)

/-! ### The equations -/

/-- One of the branches holds; nothing is said for want of branches. -/
def alternatives (branches : List Condition) : List Condition :=
  if branches.isEmpty then [] else [.any branches]

theorem alternatives_congr {α : Type} {as : List α} {f g : α → List Condition}
    (same : ∀ a ∈ as, f a = g a) :
    alternatives (as.map fun a => .all (f a)) = alternatives (as.map fun a => .all (g a)) :=
  congrArg alternatives (List.map_congr_left fun a mem => congrArg Condition.all (same a mem))

variable {registry : Registry} {relations : Relations} {resolve : Object → Path → Option Object}
  {start : Object}

theorem conditionsOf_eq (object : Object) (expansions : List Expansion) :
    conditionsOf object expansions =
      .granted object :: alternatives (expansions.map fun expansion => .all expansion.conditions) := by
  rw [conditionsOf, alternatives, List.isEmpty_map]

variable (registry resolve) in
/-- What `above` has for the objects reached: the object is granted, or all that there is above one of its
paths holds. -/
structure Specifies (reached : Object → Prop) (above : Option Object → List Condition) : Prop where
  unset : above none = [.unreachable]
  parent : ∀ object, reached object → ∀ paths, registry.pathsOf object.model = .ok paths →
    above (some object) =
      .granted object :: alternatives (paths.map fun path => .all (above (resolve object path)))

/-- Full expansions are what the equations ask for. -/
theorem Specifies.eq_of_unfolds {reached : Object → Prop} {above : Option Object → List Condition}
    (specifies : Specifies registry resolve reached above)
    (follows : ∀ object path next, relations.follow object path.hops = .ok next →
      resolve object path = next)
    (closed : ∀ child parent, reached child → IsParent registry relations child parent →
      reached parent) {next : Option Object} {conditions : List Condition}
    (unfolds : Unfolds registry relations next conditions) (found : ∀ object ∈ next, reached object) :
    above next = conditions := by
  induction unfolds with
  | unset => exact specifies.unset
  | @object object branches declared leads _ ih =>
    rw [specifies.parent object (found object rfl) _ declared, conditionsOf_eq, List.map_map,
      List.map_map]
    refine congrArg (Condition.granted object :: ·) (alternatives_congr fun branch mem => ?_)
    have same := follows object branch.path branch.next (leads branch mem)
    refine (congrArg above same).trans (ih branch mem fun parent there => ?_)
    exact closed object parent (found object rfl)
      ((isParent_iff_exists_branch declared leads).mpr ⟨branch, mem, there⟩)

/-! ### A solution -/

variable (registry resolve) in
/-- What there is above a path, as far as so many objects up. -/
def aboveUpTo : Nat → Option Object → List Condition
  | _, none => [.unreachable]
  | 0, some _ => []
  | height + 1, some object => .granted object ::
      alternatives (((registry.pathsOf object.model).toOption.getD []).map fun path =>
        .all (aboveUpTo height (resolve object path)))

theorem isParent_of_resolve
    (follows : ∀ object path, relations.follow object path.hops = .ok (resolve object path))
    {child parent : Object} {paths : List Path} {path : Path}
    (declared : registry.pathsOf child.model = .ok paths) (mem : path ∈ paths)
    (led : resolve child path = some parent) : IsParent registry relations child parent :=
  ⟨paths, declared, path, mem, by rw [follows, led]⟩

/-- Once all ways from an object are counted, counting further makes no difference. -/
theorem aboveUpTo_succ
    (follows : ∀ object path, relations.follow object path.hops = .ok (resolve object path))
    {height : Nat} {next : Option Object}
    (low : ∀ object ∈ next, ∀ way, (object :: way).IsChain (IsParent registry relations) →
      way.length < height) :
    aboveUpTo registry resolve (height + 1) next = aboveUpTo registry resolve height next := by
  induction height generalizing next with
  | zero =>
    cases next with
    | none => rfl
    | some object => exact absurd (low object rfl [] (.singleton object)) (Nat.not_lt_zero 0)
  | succ height ih =>
    cases next with
    | none => rfl
    | some object =>
      rw [aboveUpTo, aboveUpTo]
      refine congrArg (Condition.granted object :: ·) (alternatives_congr fun path mem => ih ?_)
      intro parent led way rises
      cases declared : registry.pathsOf object.model with
      | error failure =>
        rw [declared] at mem
        cases mem
      | ok paths =>
        rw [declared] at mem
        have leads := isParent_of_resolve follows declared mem led
        exact Nat.lt_of_succ_lt_succ (low object rfl (parent :: way) (.cons_cons leads rises))

/-- A way from an object becomes no shorter when it is begun where that object is reached from. -/
theorem exists_way_from_start {object : Object} {way : List Object}
    (reached : ReflTransGen (IsParent registry relations) start object)
    (rises : (object :: way).IsChain (IsParent registry relations)) :
    ∃ way', (start :: way').IsChain (IsParent registry relations) ∧ way.length ≤ way'.length := by
  induction reached using ReflTransGen.head_induction_on with
  | refl => exact ⟨way, rises, Nat.le_refl _⟩
  | @head child parent leads _ ih =>
    obtain ⟨way', rises, longer⟩ := ih
    exact ⟨parent :: way', .cons_cons leads rises, Nat.le_succ_of_le longer⟩

theorem specifies_aboveUpTo
    (follows : ∀ object path, relations.follow object path.hops = .ok (resolve object path))
    (shallow : ∀ way, (start :: way).IsChain (IsParent registry relations) →
      way.length ≤ maxDepth) :
    Specifies registry resolve (ReflTransGen (IsParent registry relations) start)
      (aboveUpTo registry resolve (maxDepth + 1)) where
  unset := rfl
  parent object reached paths declared := by
    rw [aboveUpTo, declared]
    refine congrArg (Condition.granted object :: ·) (alternatives_congr fun path mem => ?_)
    refine (aboveUpTo_succ follows fun parent led way rises => ?_).symm
    have leads := isParent_of_resolve follows declared mem led
    obtain ⟨way', rises, longer⟩ := exists_way_from_start reached (.cons_cons leads rises)
    exact Nat.lt_of_lt_of_le longer (shallow way' rises)

/-! ### Walks that are never cut -/

variable (registry relations resolve start) in
/-- Nothing above the start stops a walk: there are no cycles, all models are registered, and no way is
longer than a walk follows. -/
structure Passable : Prop where
  follows : ∀ object path, relations.follow object path.hops = .ok (resolve object path)
  acyclic : ∀ object, ¬ TransGen (IsParent registry relations) object object
  known : ∀ object, ReflTransGen (IsParent registry relations) start object →
    registry.isRegistered object.model = true
  shallow : ∀ way, (start :: way).IsChain (IsParent registry relations) → way.length ≤ maxDepth

namespace Condition.Walk.Visits

variable {reuse : Bool} {room : Nat} {walk : Walk} {object : Object}

/-- Without cycles a walk does not come back. -/
theorem fresh (acyclic : ∀ object, ¬ TransGen (IsParent registry relations) object object)
    (visit : Visits reuse registry relations start room walk (some object)) : object ∉ walk.chain :=
  fun mem => acyclic object (visit.transGen_of_mem mem)

theorem room_ne_zero
    (shallow : ∀ way, (start :: way).IsChain (IsParent registry relations) → way.length ≤ maxDepth)
    (visit : Visits reuse registry relations start room walk (some object)) : room ≠ 0 := by
  obtain ⟨way, rises, length⟩ := visit.exists_way
  have short := shallow way rises
  have constant := visit.chain_length
  omega

/-- Where nothing stops the walk, a visit succeeds and is not cut. -/
theorem expands (passable : Passable registry relations resolve start) {next : Option Object}
    (visit : Visits reuse registry relations start room walk next) :
    ∃ expansion last, expandWith reuse registry relations room walk next = .ok (expansion, last) ∧
      expansion.cut = false := by
  -- On the room: the visits to what is above the object have less of it.
  induction room generalizing walk next with
  | zero =>
    cases next with
    | none => exact ⟨_, _, rfl, rfl⟩
    | some object => exact absurd rfl (visit.room_ne_zero passable.shallow)
  | succ room ih =>
    cases next with
    | none => exact ⟨_, _, rfl, rfl⟩
    | some object =>
      have fresh := visit.fresh passable.acyclic
      rw [expandWith_succ, if_neg fresh]
      split
      · exact ⟨_, _, rfl, rfl⟩
      · rename_i unknown
        obtain ⟨paths, declared⟩ := pathsOf_of_isRegistered (passable.known object visit.reached)
        have each : ∀ before path after first middle, paths = before ++ path :: after →
            expandEach (expandPath reuse registry relations room object) (walk.enter object) before =
              .ok (first, middle) →
            ∃ expansion last, expandPath reuse registry relations room object middle path =
              .ok (expansion, last) ∧ expansion.cut = false := by
          rintro before path after first middle rfl prior
          have led := passable.follows object path
          obtain ⟨expansion, last, expanded, uncut⟩ := ih (.above visit fresh unknown declared prior led)
          exact ⟨expansion, last, expandPath_of_follow led expanded, uncut⟩
        obtain ⟨expansions, last, expanded, uncut⟩ :=
          expandEach_of_each (fun _ expansion => expansion.cut = false) each
        simp only [declared, expanded, bind, Except.bind]
        exact ⟨_, _, rfl, any_cut_eq_false uncut⟩

end Condition.Walk.Visits

/-! ### The condition built -/

/-- Where nothing stops the walk, the condition on an object is the one that every solution of the
equations gives. -/
theorem ofObject_specified (passable : Passable registry relations resolve start)
    {above : Option Object → List Condition}
    (specifies : Specifies registry resolve (ReflTransGen (IsParent registry relations) start) above) :
    ∃ paths, registry.pathsOf start.model = .ok paths ∧ ofObject registry relations start =
      .ok (.any (.granted start ::
        alternatives (paths.map fun path => .any (above (resolve start path))))) := by
  obtain ⟨paths, declared⟩ := pathsOf_of_isRegistered (passable.known start .refl)
  have each : ∀ before path after first middle, paths = before ++ path :: after →
      expandEach (expandPath true registry relations maxDepth start) { chain := [start] } before =
        .ok (first, middle) →
      ∃ expansion last, expandPath true registry relations maxDepth start middle path =
        .ok (expansion, last) ∧ above (resolve start path) = expansion.conditions := by
    rintro before path after first middle rfl prior
    have led := passable.follows start path
    have visit : Visits true registry relations start maxDepth middle (resolve start path) :=
      .first declared prior led
    obtain ⟨expansion, last, expanded, uncut⟩ := visit.expands passable
    obtain ⟨_, _, unfolds⟩ := expandWith_keeps visit.notes expanded
    refine ⟨expansion, last, expandPath_of_follow led expanded, ?_⟩
    have follows : ∀ object path next, relations.follow object path.hops = .ok next →
        resolve object path = next :=
      fun object path next led => Except.ok.inj ((passable.follows object path).symm.trans led)
    refine specifies.eq_of_unfolds follows (fun _ _ => .tail) (unfolds uncut) fun parent found => ?_
    exact .single (isParent_of_resolve passable.follows declared (by simp) found)
  obtain ⟨expansions, last, expanded, specified⟩ :=
    expandEach_of_each (fun path expansion => above (resolve start path) = expansion.conditions) each
  have same : paths.map (fun path => Condition.any (above (resolve start path))) =
      expansions.map fun expansion => .any expansion.conditions := by
    clear declared each expanded
    induction specified with
    | nil => rfl
    | cons here _ ih => rw [List.map_cons, List.map_cons, here, ih]
  refine ⟨paths, declared, ?_⟩
  rw [← ofObjectWith_true, ofObjectWith, same]
  simp only [declared, expanded, bind, Except.bind]
  rfl

end Entitlement
