import Entitlement.Proofs.Inheritance.Specification

/-!
# Walks come to an end

`Ends` describes the walk by itself, with no room given: it stops at what is on its chain, and when the
chain has become too long. `expand` does the same (`ends_iff`). `builds_end` says that every walk comes to
an end on any relations, what its calls find on the chain, and that they leave the chain alone.
-/

namespace Entitlement.Condition

namespace Walk

/-- The walk goes on from an object that it has come to. -/
structure Enters (walk : Walk) (object : Object) : Prop where
  fresh : object ∉ walk.chain
  shallow : walk.chain.length ≤ maxDepth
  unknown : walk.noted.get? object = none

section Semantics

variable (registry : Registry) (relations : Relations)

mutual

/-- What comes of following a path to where it leads. -/
inductive Ends : Walk → Option Object → Except Failure (Expansion × Walk) → Prop
  | unset (walk : Walk) : Ends walk none (.ok (.unset, walk))
  | again {walk : Walk} {object : Object} : object ∈ walk.chain →
      Ends walk (some object) (.ok (.cutOff, walk))
  | deep {walk : Walk} {object : Object} : object ∉ walk.chain → maxDepth < walk.chain.length →
      Ends walk (some object) (.ok (.cutOff, walk))
  | noted {walk : Walk} {object : Object} {conditions : List Condition} : object ∉ walk.chain →
      walk.chain.length ≤ maxDepth → walk.noted.get? object = some conditions →
      Ends walk (some object) (.ok (⟨conditions, false⟩, walk))
  | undeclared {walk : Walk} {object : Object} {failure : Failure} : walk.Enters object →
      registry.pathsOf object.model = .error failure → Ends walk (some object) (.error failure)
  | failed {walk : Walk} {object : Object} {paths : List Path} {failure : Failure} :
      walk.Enters object → registry.pathsOf object.model = .ok paths →
      EndsEach object (walk.enter object) paths (.error failure) →
      Ends walk (some object) (.error failure)
  | expanded {walk middle : Walk} {object : Object} {paths : List Path}
      {expansions : List Expansion} {expansion : Expansion} :
      walk.Enters object → registry.pathsOf object.model = .ok paths →
      EndsEach object (walk.enter object) paths (.ok (expansions, middle)) →
      expansion = ⟨conditionsOf object expansions, expansions.any (·.cut)⟩ →
      Ends walk (some object) (.ok (expansion, middle.leave object expansion))

/-- What comes of following paths of an object one after another. -/
inductive EndsEach : Object → Walk → List Path → Except Failure (List Expansion × Walk) → Prop
  | none (object : Object) (walk : Walk) : EndsEach object walk [] (.ok ([], walk))
  | lost {object : Object} {walk : Walk} {path : Path} {rest : List Path} {failure : Failure} :
      relations.follow object path.hops = .error failure →
      EndsEach object walk (path :: rest) (.error failure)
  | stopped {object : Object} {walk : Walk} {path : Path} {rest : List Path}
      {next : Option Object} {failure : Failure} :
      relations.follow object path.hops = .ok next → Ends walk next (.error failure) →
      EndsEach object walk (path :: rest) (.error failure)
  | failed {object : Object} {walk middle : Walk} {path : Path} {rest : List Path}
      {next : Option Object} {expansion : Expansion} {failure : Failure} :
      relations.follow object path.hops = .ok next → Ends walk next (.ok (expansion, middle)) →
      EndsEach object middle rest (.error failure) →
      EndsEach object walk (path :: rest) (.error failure)
  | more {object : Object} {walk middle last : Walk} {path : Path} {rest : List Path}
      {next : Option Object} {expansion : Expansion} {expansions : List Expansion} :
      relations.follow object path.hops = .ok next → Ends walk next (.ok (expansion, middle)) →
      EndsEach object middle rest (.ok (expansions, last)) →
      EndsEach object walk (path :: rest) (.ok (expansion :: expansions, last))

end

/-- What comes of building the condition on an object. -/
inductive Builds (start : Object) : Except Failure Condition → Prop
  | undeclared {failure : Failure} : registry.pathsOf start.model = .error failure →
      Builds start (.error failure)
  | failed {paths : List Path} {failure : Failure} : registry.pathsOf start.model = .ok paths →
      EndsEach registry relations start { chain := [start] } paths (.error failure) →
      Builds start (.error failure)
  | built {paths : List Path} {expansions : List Expansion} {last : Walk} :
      registry.pathsOf start.model = .ok paths →
      EndsEach registry relations start { chain := [start] } paths (.ok (expansions, last)) →
      Builds start (.ok (.any (.granted start ::
        alternatives (expansions.map fun expansion => .any expansion.conditions))))

/-! ### Arrivals -/

/-- The walk, standing so, has followed a path, and comes to where it leads. -/
structure Arrival where
  walk : Walk
  next : Option Object

/-- A walk that has entered an object and follows its paths arrives so over one of them. -/
def ArrivesFrom (object : Object) (entered : Walk) (arrival : Arrival) : Prop :=
  ∃ before path after expansions,
    registry.pathsOf object.model = .ok (before ++ path :: after) ∧
    EndsEach registry relations object entered before (.ok (expansions, arrival.walk)) ∧
    relations.follow object path.hops = .ok arrival.next

/-- Before the walk is back from one arrival it comes to another. -/
def Arrival.LeadsOn (arrival other : Arrival) : Prop :=
  ∃ object, arrival.next = some object ∧ arrival.walk.Enters object ∧
    ArrivesFrom registry relations object (arrival.walk.enter object) other

/-- The arrivals while the condition on an object is built. -/
inductive Arrives (start : Object) : Arrival → Prop
  | first {arrival : Arrival} : ArrivesFrom registry relations start { chain := [start] } arrival →
      Arrives start arrival
  | above {arrival other : Arrival} : Arrives start arrival →
      arrival.LeadsOn registry relations other → Arrives start other

end Semantics

variable {registry : Registry} {relations : Relations}

/-! ### The room on the chain -/

/-- How many more objects may stand on the chain. -/
def room (walk : Walk) : Nat := maxDepth + 1 - walk.chain.length

theorem room_congr {walk last : Walk} (chain : last.chain = walk.chain) : last.room = walk.room := by
  rw [room, room, chain]

theorem room_enter {walk : Walk} {object : Object} (enters : walk.Enters object) :
    walk.room = (walk.enter object).room + 1 := by
  have shallow := enters.shallow
  simp only [room, enter, List.length_cons]
  omega

theorem fromNotes_true (walk : Walk) (object : Object) :
    walk.fromNotes true object = walk.noted.get? object := rfl

/-! ### The walk is what it was described to be -/

mutual

theorem Ends.expandWith_eq {walk : Walk} {next : Option Object}
    {result : Except Failure (Expansion × Walk)} : Ends registry relations walk next result →
      expandWith true registry relations walk.room walk next = result
  | .unset walk => by cases walk.room <;> rfl
  | .again known => by
    cases walk.room with
    | zero => rfl
    | succ room => rw [expandWith_succ, if_pos known]
  | .deep _ long => by
    have full : walk.room = 0 := Nat.sub_eq_zero_of_le long
    rw [full]
    rfl
  | .noted fresh shallow known => by
    obtain ⟨room, same⟩ : ∃ room, walk.room = room + 1 := ⟨_, Nat.succ_sub shallow⟩
    rw [same, expandWith_succ, if_neg fresh, fromNotes_true, known]
  | .undeclared enters undeclared => by
    rw [room_enter enters, expandWith_succ, if_neg enters.fresh, fromNotes_true, enters.unknown,
      undeclared]
    rfl
  | .failed enters declared each => by
    rw [room_enter enters, expandWith_succ, if_neg enters.fresh, fromNotes_true, enters.unknown,
      declared]
    simp only [bind, Except.bind, each.expandEach_eq]
  | .expanded enters declared each same => by
    rw [room_enter enters, expandWith_succ, if_neg enters.fresh, fromNotes_true, enters.unknown,
      declared, same]
    simp only [bind, Except.bind, each.expandEach_eq]
    rfl

theorem EndsEach.expandEach_eq {object : Object} {walk : Walk} {paths : List Path}
    {result : Except Failure (List Expansion × Walk)} :
    EndsEach registry relations object walk paths result →
      expandEach (expandPath true registry relations walk.room object) walk paths = result
  | .none _ _ => rfl
  | .lost led => by
    simp only [expandEach, expandPath, led, bind, Except.bind]
  | .stopped led ends => by
    simp only [expandEach, expandPath, led, bind, Except.bind, ends.expandWith_eq]
  | .failed led ends each => by
    have here := ends.expandWith_eq
    have there := each.expandEach_eq
    rw [room_congr (expandWith_chain here)] at there
    simp only [expandEach, expandPath_of_follow led here, bind, Except.bind, there]
  | .more led ends each => by
    have here := ends.expandWith_eq
    have there := each.expandEach_eq
    rw [room_congr (expandWith_chain here)] at there
    exact expandEach_cons_ok (expandPath_of_follow led here) there

end

theorem endsEach_expandEach {room : Nat} {object : Object}
    (each : ∀ walk next, walk.room = room →
      Ends registry relations walk next (expandWith true registry relations room walk next))
    {walk : Walk} (left : walk.room = room) (paths : List Path) :
    EndsEach registry relations object walk paths
      (expandEach (expandPath true registry relations room object) walk paths) := by
  induction paths generalizing walk with
  | nil => exact .none object walk
  | cons path rest ih =>
    cases led : relations.follow object path.hops with
    | error failure =>
      simp only [expandEach, expandPath, led, bind, Except.bind]
      exact .lost led
    | ok next =>
      have ends := each walk next left
      cases here : expandWith true registry relations room walk next with
      | error failure =>
        rw [here] at ends
        simp only [expandEach, expandPath, led, bind, Except.bind, here]
        exact .stopped led ends
      | ok result =>
        obtain ⟨expansion, middle⟩ := result
        rw [here] at ends
        have onwards := ih ((room_congr (expandWith_chain here)).trans left)
        have first := expandPath_of_follow led here
        cases there : expandEach (expandPath true registry relations room object) middle rest with
        | error failure =>
          rw [there] at onwards
          simp only [expandEach, first, bind, Except.bind, there]
          exact .failed led ends onwards
        | ok result =>
          rw [there] at onwards
          rw [expandEach_cons_ok first there]
          exact .more led ends onwards

theorem ends_expandWith {room : Nat} (walk : Walk) (next : Option Object) (left : walk.room = room) :
    Ends registry relations walk next (expandWith true registry relations room walk next) := by
  -- On the room: what is entered takes some of it, and everything that is followed from there has less.
  induction room generalizing walk next with
  | zero =>
    cases next with
    | none => exact .unset walk
    | some object =>
      by_cases known : object ∈ walk.chain
      · exact .again known
      · exact .deep known (Nat.le_of_sub_eq_zero left)
  | succ room ih =>
    cases next with
    | none => exact .unset walk
    | some object =>
      rw [expandWith_succ, fromNotes_true]
      split
      · rename_i known
        exact .again known
      · rename_i fresh
        have shallow : walk.chain.length ≤ maxDepth := by
          rw [Walk.room] at left
          omega
        split
        · rename_i conditions noted
          exact .noted fresh shallow noted
        · rename_i unknown
          have enters : walk.Enters object := ⟨fresh, shallow, unknown⟩
          cases declared : registry.pathsOf object.model with
          | error failure => exact .undeclared enters declared
          | ok paths =>
            have less : (walk.enter object).room = room :=
              Nat.succ.inj ((room_enter enters).symm.trans left)
            have each : EndsEach registry relations object (walk.enter object) paths _ :=
              endsEach_expandEach ih less paths
            simp only [bind, Except.bind]
            cases expanded : expandEach (expandPath true registry relations room object)
                (walk.enter object) paths with
            | error failure =>
              rw [expanded] at each
              exact .failed enters declared each
            | ok result =>
              rw [expanded] at each
              exact .expanded enters declared each rfl

/-- What comes of following a path is what `expand` computes with the room that the chain leaves. -/
theorem ends_iff {walk : Walk} {next : Option Object} {result : Except Failure (Expansion × Walk)} :
    Ends registry relations walk next result ↔
      walk.expand registry relations (maxDepth + 1 - walk.chain.length) next = result := by
  rw [← expandWith_true]
  constructor
  · exact Ends.expandWith_eq
  · rintro rfl
    exact ends_expandWith walk next rfl

theorem endsEach_iff {object : Object} {walk : Walk} {paths : List Path}
    {result : Except Failure (List Expansion × Walk)} :
    EndsEach registry relations object walk paths result ↔
      expandEach (expandPath true registry relations walk.room object) walk paths = result := by
  constructor
  · exact EndsEach.expandEach_eq
  · rintro rfl
    exact endsEach_expandEach ends_expandWith rfl paths

theorem builds_iff {start : Object} {result : Except Failure Condition} :
    Builds registry relations start result ↔ ofObject registry relations start = result := by
  have whole : ({ chain := [start] } : Walk).room = maxDepth := rfl
  rw [← ofObjectWith_true, ofObjectWith]
  constructor
  · intro builds
    cases builds with
    | undeclared undeclared =>
      rw [undeclared]
      rfl
    | failed declared each =>
      rw [endsEach_iff, whole] at each
      simp only [declared, each, bind, Except.bind]
    | built declared each =>
      rw [endsEach_iff, whole] at each
      simp only [declared, each, bind, Except.bind]
      rfl
  · rintro rfl
    cases declared : registry.pathsOf start.model with
    | error failure => exact .undeclared declared
    | ok paths =>
      have each : EndsEach registry relations start { chain := [start] } paths _ := endsEach_iff.mpr rfl
      rw [whole] at each
      simp only [bind, Except.bind]
      cases expanded : expandEach (expandPath true registry relations maxDepth start)
          { chain := [start] } paths with
      | error failure =>
        rw [expanded] at each
        exact .failed declared each
      | ok result =>
        rw [expanded] at each
        exact .built declared each

/-! ### The chain -/

theorem Ends.chain {walk last : Walk} {next : Option Object} {expansion : Expansion}
    (ends : Ends registry relations walk next (.ok (expansion, last))) : last.chain = walk.chain :=
  expandWith_chain ends.expandWith_eq

/-- All paths of an object are followed from the same chain. -/
theorem ArrivesFrom.chain {object : Object} {entered : Walk} {arrival : Arrival}
    (arrives : ArrivesFrom registry relations object entered arrival) :
    arrival.walk.chain = entered.chain := by
  obtain ⟨_, _, _, _, _, each, _⟩ := arrives
  exact expandEach_chain expandPath_chain each.expandEach_eq

theorem Arrival.LeadsOn.room_lt {arrival other : Arrival}
    (leads : arrival.LeadsOn registry relations other) : other.walk.room < arrival.walk.room := by
  obtain ⟨object, _, enters, arrives⟩ := leads
  rw [room_enter enters, room_congr arrives.chain]
  exact Nat.lt_succ_self _

theorem leadsOn_wellFounded :
    WellFounded fun other arrival : Arrival => arrival.LeadsOn registry relations other :=
  Subrelation.wf Arrival.LeadsOn.room_lt (measure fun arrival : Arrival => arrival.walk.room).wf

/-- The chain goes back to the start, has no object twice and is not too long. -/
structure ChainFrom (start : Object) (chain : List Object) : Prop where
  start : ∃ above, chain = above ++ [start]
  nodup : chain.Nodup
  short : chain.length ≤ maxDepth + 1

theorem ChainFrom.enter {start object : Object} {walk : Walk} (rises : ChainFrom start walk.chain)
    (enters : walk.Enters object) : ChainFrom start (walk.enter object).chain where
  start := by
    obtain ⟨above, chain⟩ := rises.start
    exact ⟨object :: above, congrArg (object :: ·) chain⟩
  nodup := List.nodup_cons.mpr ⟨enters.fresh, rises.nodup⟩
  short := Nat.succ_le_succ enters.shallow

theorem Arrives.chainFrom {start : Object} {arrival : Arrival}
    (arrives : Arrives registry relations start arrival) : ChainFrom start arrival.walk.chain := by
  induction arrives with
  | first first =>
    rw [first.chain]
    exact ⟨⟨[], rfl⟩, List.pairwise_singleton _ start, Nat.le_add_left 1 maxDepth⟩
  | above _ leads ih =>
    obtain ⟨object, _, enters, arrives⟩ := leads
    rw [arrives.chain]
    exact ih.enter enters

/-- Whatever the relations are, a walk comes to an end, with what `expand` computes, and so does the build
of every condition: no arrival leads on forever. On each arrival the chain goes back to the start, has no
object twice and at most `maxDepth + 1` objects. A walk that comes back from an arrival leaves the chain as
it was, so that the next path of an object is followed from the same chain. -/
theorem builds_end (registry : Registry) (relations : Relations) :
    (WellFounded fun other arrival : Arrival => arrival.LeadsOn registry relations other) ∧
    (∀ walk next result, Ends registry relations walk next result ↔
      walk.expand registry relations (maxDepth + 1 - walk.chain.length) next = result) ∧
    (∀ walk next expansion last, Ends registry relations walk next (.ok (expansion, last)) →
      last.chain = walk.chain) ∧
    (∀ object entered arrival, ArrivesFrom registry relations object entered arrival →
      arrival.walk.chain = entered.chain) ∧
    ∀ start,
      (∀ result, Builds registry relations start result ↔
        ofObject registry relations start = result) ∧
      ∀ arrival, Arrives registry relations start arrival →
        (∃ above, arrival.walk.chain = above ++ [start]) ∧ arrival.walk.chain.Nodup ∧
          arrival.walk.chain.length ≤ maxDepth + 1 := by
  refine ⟨leadsOn_wellFounded, fun _ _ _ => ends_iff, fun _ _ _ _ ends => ends.chain,
    fun _ _ _ arrives => arrives.chain, fun start => ⟨fun _ => builds_iff, fun arrival arrives => ?_⟩⟩
  have rises := arrives.chainFrom
  exact ⟨rises.start, rises.nodup, rises.short⟩

end Walk

end Entitlement.Condition
