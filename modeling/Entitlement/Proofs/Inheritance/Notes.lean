import Entitlement.Proofs.Inheritance.Termination
import Mathlib.Data.Set.Finite.Lattice

/-!
# What is noted

A walk notes an object when it has followed everything above it and was cut nowhere. That the notes can
be taken as they are, whatever is on the chain then, is `notes_expand_fully`: at any moment they are full
expansions, and nothing on the chain is above an object noted.
-/

namespace Entitlement

open Condition Condition.Walk
open Relation (ReflTransGen TransGen)

/-! ### Full expansions -/

/-- Where the path leads; nowhere also if it cannot be followed. -/
def Relations.resolve (relations : Relations) (object : Object) (path : Path) : Option Object :=
  (relations.follow object path.hops).toOption.join

theorem Relations.resolve_of_follow {relations : Relations} {object : Object} {path : Path}
    {next : Option Object} (led : relations.follow object path.hops = .ok next) :
    relations.resolve object path = next := by
  rw [resolve, led]
  rfl

variable (registry : Registry) (relations : Relations)

/-- The conditions are all that there is above the object. There is no cycle above it, and no end to what
is there but by paths that are not declared or relations that are not set. -/
structure FullExpansion (object : Object) (conditions : List Condition) : Prop where
  finite : {above | ReflTransGen (IsParent registry relations) object above}.Finite
  acyclic : ∀ above, ReflTransGen (IsParent registry relations) object above →
    ¬ TransGen (IsParent registry relations) above above
  followed : ∀ above, ReflTransGen (IsParent registry relations) object above →
    ∃ paths, registry.pathsOf above.model = .ok paths ∧
      ∀ path ∈ paths, ∃ next, relations.follow above path.hops = .ok next
  /-- They are what the recursion over the paths gives, from some height on. -/
  recursion : ∃ height, ∀ more ≥ height,
    aboveUpTo registry relations.resolve more (some object) = conditions
  /-- The equations of that recursion have no other solution. -/
  specified : ∀ above, Specifies registry relations.resolve
    (ReflTransGen (IsParent registry relations) object) above → above (some object) = conditions

variable {registry relations}

theorem exists_common_height {α : Type} {P : α → Nat → Prop} {as : List α}
    (each : ∀ a ∈ as, ∃ height, ∀ more ≥ height, P a more) :
    ∃ height, ∀ more ≥ height, ∀ a ∈ as, P a more := by
  induction as with
  | nil => exact ⟨0, fun _ _ a mem => nomatch mem⟩
  | cons a as ih =>
    obtain ⟨height, here⟩ := each a List.mem_cons_self
    obtain ⟨height', there⟩ := ih fun b mem => each b (List.mem_cons_of_mem a mem)
    refine ⟨max height height', fun more high b mem => ?_⟩
    rcases List.mem_cons.mp mem with rfl | mem
    · exact here more (Nat.le_trans (Nat.le_max_left _ _) high)
    · exact there more (Nat.le_trans (Nat.le_max_right _ _) high) b mem

namespace Unfolds

variable {next : Option Object} {object above : Object} {conditions : List Condition}

theorem of_parent {parent : Object} (unfolds : Unfolds registry relations (some object) conditions)
    (leads : IsParent registry relations object parent) :
    ∃ conditions, Unfolds registry relations (some parent) conditions := by
  cases unfolds with
  | @object _ branches declared led unfolds =>
    obtain ⟨branch, mem, same⟩ := (isParent_iff_exists_branch declared led).mp leads
    exact ⟨branch.conditions, same ▸ unfolds branch mem⟩

theorem of_reached (unfolds : Unfolds registry relations (some object) conditions)
    (reached : ReflTransGen (IsParent registry relations) object above) :
    ∃ conditions, Unfolds registry relations (some above) conditions := by
  induction reached with
  | refl => exact ⟨conditions, unfolds⟩
  | tail _ leads ih =>
    obtain ⟨_, unfolds⟩ := ih
    exact unfolds.of_parent leads

theorem followed (unfolds : Unfolds registry relations (some object) conditions) :
    ∃ paths, registry.pathsOf object.model = .ok paths ∧
      ∀ path ∈ paths, ∃ next, relations.follow object path.hops = .ok next := by
  cases unfolds with
  | @object _ branches declared leads _ =>
    refine ⟨_, declared, fun path mem => ?_⟩
    obtain ⟨branch, among, rfl⟩ := List.mem_map.mp mem
    exact ⟨branch.next, leads branch among⟩

theorem acyclic (unfolds : Unfolds registry relations next conditions) :
    ∀ object ∈ next, ¬ TransGen (IsParent registry relations) object object := by
  -- A cycle through the object goes over one of its parents, which is then on a cycle too.
  induction unfolds with
  | unset => exact fun _ mem => nomatch mem
  | object declared leads _ ih =>
    rintro object mem cycle
    obtain rfl := Option.some.inj mem
    obtain ⟨parent, first, onwards⟩ := TransGen.head'_iff.mp cycle
    obtain ⟨branch, among, same⟩ := (isParent_iff_exists_branch declared leads).mp first
    exact ih branch among parent same (TransGen.tail' onwards first)

theorem finite (unfolds : Unfolds registry relations next conditions) :
    {above | ∃ object ∈ next, ReflTransGen (IsParent registry relations) object above}.Finite := by
  induction unfolds with
  | unset => exact Set.finite_empty.subset fun _ ⟨_, mem, _⟩ => nomatch mem
  | @object object branches declared leads _ ih =>
    have parents := Set.Finite.biUnion (List.finite_toSet branches) ih
    refine (parents.insert object).subset ?_
    rintro above ⟨_, mem, reached⟩
    obtain rfl := Option.some.inj mem
    rcases reached.cases_head with rfl | ⟨parent, first, onwards⟩
    · exact Set.mem_insert _ _
    · obtain ⟨branch, among, same⟩ := (isParent_iff_exists_branch declared leads).mp first
      exact Set.mem_insert_of_mem _ (Set.mem_biUnion among ⟨parent, same, onwards⟩)

theorem recursion (unfolds : Unfolds registry relations next conditions) :
    ∃ height, ∀ more ≥ height, aboveUpTo registry relations.resolve more next = conditions := by
  induction unfolds with
  | unset => exact ⟨0, fun more _ => by cases more <;> rfl⟩
  | @object object branches declared leads _ ih =>
    obtain ⟨height, low⟩ := exists_common_height ih
    refine ⟨height + 1, fun more high => ?_⟩
    obtain ⟨more, rfl⟩ : ∃ below, more = below + 1 := Nat.exists_eq_add_one.mpr (Nat.zero_lt_of_lt high)
    rw [aboveUpTo, declared, conditionsOf_eq, List.map_map]
    refine congrArg (Condition.granted object :: ·) ?_
    show alternatives ((branches.map Branch.path).map _) = _
    rw [List.map_map]
    refine alternatives_congr fun branch mem => ?_
    rw [Relations.resolve_of_follow (leads branch mem)]
    exact low more (Nat.le_of_succ_le_succ high) branch mem

theorem fullExpansion (unfolds : Unfolds registry relations (some object) conditions) :
    FullExpansion registry relations object conditions where
  finite := unfolds.finite.subset fun _ reached => ⟨object, rfl, reached⟩
  acyclic above reached := by
    obtain ⟨_, unfolds⟩ := unfolds.of_reached reached
    exact unfolds.acyclic above rfl
  followed above reached := by
    obtain ⟨_, unfolds⟩ := unfolds.of_reached reached
    exact unfolds.followed
  recursion := unfolds.recursion
  specified above specifies := by
    refine specifies.eq_of_unfolds (fun _ _ _ => Relations.resolve_of_follow) (fun _ _ => .tail)
      unfolds ?_
    rintro _ mem
    obtain rfl := Option.some.inj mem
    exact .refl

end Unfolds

/-! ### What a walk does to its notes -/

namespace Condition.Walk

/-- There is a note for the object. -/
def Notes (walk : Walk) (object : Object) : Prop :=
  ∃ conditions, walk.noted.get? object = some conditions

theorem not_notes_start (start object : Object) : ¬ Notes { chain := [start] } object := by
  rintro ⟨_, found⟩
  cases found

theorem Enters.not_notes {walk : Walk} {object : Object} (enters : walk.Enters object) :
    ¬ walk.Notes object := by
  rintro ⟨_, found⟩
  cases enters.unknown.symm.trans found

theorem notes_leave_iff {walk : Walk} {object other : Object} {expansion : Expansion} :
    (walk.leave object expansion).Notes other ↔
      (expansion.cut = false ∧ other = object) ∨ walk.Notes other := by
  unfold Notes leave
  cases expansion.cut with
  | true => simp
  | false =>
    simp only [Bool.false_eq_true, if_false, SortedMap.get?_insert]
    by_cases same : other = object <;> simp [same, eq_comm]

/-- The result, if there is one, is so. -/
def Returns {α : Type} (post : α → Walk → Prop) : Except Failure (α × Walk) → Prop
  | .ok (value, last) => post value last
  | .error _ => True

variable (registry relations) in
/-- Entering an object keeps it so, and so does leaving the object once its paths have been followed. -/
structure Kept (inv : Walk → Prop) : Prop where
  enter {walk : Walk} {object : Object} : walk.Enters object → inv walk → inv (walk.enter object)
  leave {walk middle : Walk} {object : Object} {paths : List Path} {expansions : List Expansion}
    {expansion : Expansion} : walk.Enters object → registry.pathsOf object.model = .ok paths →
    EndsEach registry relations object (walk.enter object) paths (.ok (expansions, middle)) →
    expansion = ⟨conditionsOf object expansions, expansions.any (·.cut)⟩ →
    inv walk → inv middle → inv (middle.leave object expansion)

mutual

theorem Ends.keeps {inv : Walk → Prop} (kept : Kept registry relations inv) {walk : Walk}
    {next : Option Object} {result : Except Failure (Expansion × Walk)} :
    Ends registry relations walk next result → inv walk → Returns (fun _ last => inv last) result
  | .unset _, holds => holds
  | .again _, holds => holds
  | .deep _ _, holds => holds
  | .noted _ _ _, holds => holds
  | .undeclared _ _, _ => trivial
  | .failed _ _ _, _ => trivial
  | .expanded enters declared each same, holds => by
    have middle := each.keeps kept (kept.enter enters holds)
    exact kept.leave enters declared each same holds middle

theorem EndsEach.keeps {inv : Walk → Prop} (kept : Kept registry relations inv) {object : Object}
    {walk : Walk} {paths : List Path} {result : Except Failure (List Expansion × Walk)} :
    EndsEach registry relations object walk paths result → inv walk →
      Returns (fun _ last => inv last) result
  | .none _ _, holds => holds
  | .lost _, _ => trivial
  | .stopped _ _, _ => trivial
  | .failed _ _ _, _ => trivial
  | .more _ ends each, holds => by
    have middle := ends.keeps kept holds
    have last := each.keeps kept middle
    exact last

end

theorem ArrivesFrom.keeps {inv : Walk → Prop} (kept : Kept registry relations inv) {object : Object}
    {entered : Walk} {arrival : Arrival}
    (arrives : ArrivesFrom registry relations object entered arrival) (holds : inv entered) :
    inv arrival.walk := by
  obtain ⟨_, _, _, _, _, each, _⟩ := arrives
  exact each.keeps kept holds

theorem Arrives.keeps {inv : Walk → Prop} (kept : Kept registry relations inv) {start : Object}
    (begins : inv { chain := [start] }) {arrival : Arrival}
    (arrives : Arrives registry relations start arrival) : inv arrival.walk := by
  induction arrives with
  | first first => exact first.keeps kept begins
  | above _ leads ih =>
    obtain ⟨_, _, enters, arrives⟩ := leads
    exact arrives.keeps kept (kept.enter enters ih)

theorem notes_kept (noted : Object) : Kept registry relations (Notes · noted) where
  enter _ known := known
  leave _ _ _ _ _ known := notes_leave_iff.mpr (.inr known)

/-- What a path leads to is noted once the walk is back, unless it was cut. -/
theorem Ends.noted_of_uncut {walk last : Walk} {object : Object} {expansion : Expansion}
    (ends : Ends registry relations walk (some object) (.ok (expansion, last)))
    (uncut : expansion.cut = false) : last.Notes object := by
  cases ends with
  | again _ => cases uncut
  | deep _ _ => cases uncut
  | noted _ _ known => exact ⟨_, known⟩
  | expanded _ _ _ _ => exact notes_leave_iff.mpr (.inl ⟨uncut, rfl⟩)

theorem EndsEach.noted_of_uncut {object parent : Object} {walk last : Walk} {paths : List Path}
    {path : Path} {expansions : List Expansion}
    (each : EndsEach registry relations object walk paths (.ok (expansions, last)))
    (uncut : expansions.any (·.cut) = false) (mem : path ∈ paths)
    (led : relations.follow object path.hops = .ok (some parent)) : last.Notes parent := by
  induction paths generalizing walk expansions with
  | nil => cases mem
  | cons first rest ih =>
    cases each with
    | more leads ends each =>
      rw [List.any_cons, Bool.or_eq_false_iff] at uncut
      rcases List.mem_cons.mp mem with rfl | mem
      · cases leads.symm.trans led
        exact each.keeps (notes_kept parent) (ends.noted_of_uncut uncut.1)
      · exact ih each uncut.2 mem

variable (registry relations) in
/-- The notes can be relied on: they are full expansions, and what is noted is apart from the chain, as is
all that is above it. -/
structure Reliable (walk : Walk) : Prop where
  unfold : NotesUnfold registry relations walk
  above : ∀ child parent, walk.Notes child → IsParent registry relations child parent →
    walk.Notes parent
  apart : ∀ object, walk.Notes object → object ∉ walk.chain

namespace Reliable

variable {walk : Walk} {object : Object}

theorem start (start : Object) : Reliable registry relations { chain := [start] } where
  unfold := notesUnfold_empty [start]
  above child _ known _ := absurd known (not_notes_start start child)
  apart object known := absurd known (not_notes_start start object)

theorem enter (reliable : Reliable registry relations walk) (enters : walk.Enters object) :
    Reliable registry relations (walk.enter object) where
  unfold := notesUnfold_enter reliable.unfold object
  above := reliable.above
  apart other known := by
    rintro mem
    rcases List.mem_cons.mp mem with rfl | mem
    · exact enters.not_notes known
    · exact reliable.apart other known mem

theorem back (reliable : Reliable registry relations walk) :
    Reliable registry relations { walk with chain := walk.chain.tail } where
  unfold := reliable.unfold
  above := reliable.above
  apart other known mem := reliable.apart other known (List.mem_of_mem_tail mem)

theorem leave {expansion : Expansion} (reliable : Reliable registry relations walk)
    (unfolds : expansion.cut = false →
      Unfolds registry relations (some object) expansion.conditions)
    (parents : expansion.cut = false → ∀ parent, IsParent registry relations object parent →
      walk.Notes parent)
    (fresh : object ∉ walk.chain.tail) :
    Reliable registry relations (walk.leave object expansion) where
  unfold := notesUnfold_leave reliable.unfold unfolds
  above child parent known leads := by
    rcases notes_leave_iff.mp known with ⟨uncut, rfl⟩ | known
    · exact notes_leave_iff.mpr (.inr (parents uncut parent leads))
    · exact notes_leave_iff.mpr (.inr (reliable.above child parent known leads))
  apart other known := by
    rcases notes_leave_iff.mp known with ⟨_, rfl⟩ | known
    · exact fresh
    · exact reliable.back.apart other known

theorem of_reached (reliable : Reliable registry relations walk) (known : walk.Notes object)
    {above : Object} (reached : ReflTransGen (IsParent registry relations) object above) :
    walk.Notes above := by
  induction reached with
  | refl => exact known
  | tail _ leads ih => exact reliable.above _ _ ih leads

theorem kept : Kept registry relations (Reliable registry relations) where
  enter enters reliable := reliable.enter enters
  leave enters declared each same reliable middle := by
    have ends := Ends.expanded enters declared each same
    have chain := expandEach_chain expandPath_chain each.expandEach_eq
    refine middle.leave ?_ ?_ ?_
    · exact (expandWith_keeps reliable.unfold ends.expandWith_eq).2.2
    · -- Every parent has been arrived at, and none of the paths to them was cut.
      rintro uncut parent ⟨_, declared', path, mem, led⟩
      cases declared.symm.trans declared'
      rw [same] at uncut
      exact each.noted_of_uncut uncut mem led
    · rw [chain]
      exact enters.fresh

end Reliable

/-! ### At any moment -/

variable (registry relations) in
/-- The walk stands so at some moment while the condition on an object is built: at first, on an arrival,
with an object entered, with the object off the chain again but not yet noted, or back from an arrival. -/
inductive Moment (start : Object) : Walk → Prop
  | start : Moment start { chain := [start] }
  | arrived {arrival : Arrival} : Arrives registry relations start arrival → Moment start arrival.walk
  | entered {walk : Walk} {object : Object} : Arrives registry relations start ⟨walk, some object⟩ →
      walk.Enters object → Moment start (walk.enter object)
  | left {walk middle : Walk} {object : Object} {paths : List Path} {expansions : List Expansion} :
      Arrives registry relations start ⟨walk, some object⟩ → walk.Enters object →
      registry.pathsOf object.model = .ok paths →
      EndsEach registry relations object (walk.enter object) paths (.ok (expansions, middle)) →
      Moment start { middle with chain := middle.chain.tail }
  | back {arrival : Arrival} {expansion : Expansion} {last : Walk} :
      Arrives registry relations start arrival →
      Ends registry relations arrival.walk arrival.next (.ok (expansion, last)) → Moment start last

theorem Moment.keeps {inv : Walk → Prop} (kept : Kept registry relations inv)
    (back : ∀ walk, inv walk → inv { walk with chain := walk.chain.tail }) {start : Object}
    (begins : inv { chain := [start] }) {walk : Walk}
    (moment : Moment registry relations start walk) : inv walk := by
  cases moment with
  | start => exact begins
  | arrived arrives => exact arrives.keeps kept begins
  | entered arrives enters => exact kept.enter enters (arrives.keeps kept begins)
  | left arrives enters _ each =>
    have entered := kept.enter enters (arrives.keeps kept begins)
    exact back _ (each.keeps kept entered)
  | back arrives ends => exact ends.keeps kept (arrives.keeps kept begins)

/-- At any moment while a condition is built, on whatever relations, what is noted for an object is its
full expansion, and no object on the chain is above the object noted or is that object. -/
theorem notes_expand_fully {start object : Object} {walk : Walk} {conditions : List Condition}
    (moment : Moment registry relations start walk)
    (noted : walk.noted.get? object = some conditions) :
    FullExpansion registry relations object conditions ∧
      ∀ below ∈ walk.chain, ¬ ReflTransGen (IsParent registry relations) object below := by
  have reliable := moment.keeps Reliable.kept (fun _ => Reliable.back) (.start start)
  refine ⟨(reliable.unfold object conditions noted).fullExpansion, fun below mem reached => ?_⟩
  exact reliable.apart below (reliable.of_reached ⟨conditions, noted⟩ reached) mem

end Condition.Walk

namespace Sample

def water (key : String) : Object := ⟨⟨"river", "water", by decide, by decide⟩, key⟩

/-- Of all waters one is to the left and one to the right. -/
def waters : Registry where
  inheritance := .ofList [((water "spring").model,
    [⟨["left"], by decide, by decide⟩, ⟨["right"], by decide, by decide⟩])]

/-- Left of the spring is a brook, from which one comes back to the spring; the pond is to the right of
both. -/
def flow : Relations := fun object side => .ok <|
  match object.key, side with
  | "spring", "left" => some (water "brook")
  | "brook", "left" => some (water "spring")
  | "spring", "right" | "brook", "right" => some (water "pond")
  | _, _ => none

end Sample

open Sample in
/-- The walk has come to the pond over the brook, and has noted the pond when it comes to it again. -/
theorem Condition.Walk.notes_expand_fully_at_pond :
    ∃ walk conditions, Moment waters flow (water "spring") walk ∧
      walk.noted.get? (water "pond") = some conditions ∧
      FullExpansion waters flow (water "pond") conditions ∧
      ∀ below ∈ walk.chain, ¬ ReflTransGen (IsParent waters flow) (water "pond") below := by
  let left : Path := ⟨["left"], by decide, by decide⟩
  let right : Path := ⟨["right"], by decide, by decide⟩
  have declared : waters.pathsOf (water "spring").model = .ok [left, right] := by decide +kernel
  have led : flow.follow (water "spring") right.hops = .ok (some (water "pond")) := by decide +kernel
  have noted : (expandEach (expandPath true waters flow maxDepth (water "spring"))
      { chain := [water "spring"] } [left]).toOption.any
        (fun result => (result.2.noted.get? (water "pond")).isSome) = true := by decide +kernel
  cases expanded : expandEach (expandPath true waters flow maxDepth (water "spring"))
      { chain := [water "spring"] } [left] with
  | error failure =>
    rw [expanded] at noted
    cases noted
  | ok result =>
    obtain ⟨expansions, walk⟩ := result
    rw [expanded] at noted
    obtain ⟨conditions, found⟩ := Option.isSome_iff_exists.mp noted
    have arrives : Arrives waters flow (water "spring") ⟨walk, some (water "pond")⟩ :=
      .first ⟨[left], right, [], expansions, declared, endsEach_iff.mpr expanded, led⟩
    have moment := Moment.arrived arrives
    exact ⟨walk, conditions, moment, found, notes_expand_fully moment found⟩

end Entitlement
