import Entitlement.Proofs.Inheritance.Walk
import Mathlib.Data.List.Chain
import Mathlib.Logic.Relation

/-!
# The visits of a walk

`Visits` lists the calls that the walk from an object makes, and `LeavesForNotes` tells the ways on
which one of them stops short at an object that has been noted. At every visit the notes are full
expansions (`Visits.notes`).
-/

namespace Entitlement.Condition

open Walk
open Relation (ReflTransGen TransGen)

namespace Walk

variable (reuse : Bool) (registry : Registry) (relations : Relations) (start : Object)

/-- The walk from `start` comes, with so much room left and standing so, to where a path leads. -/
inductive Visits : Nat → Walk → Option Object → Prop
  | first {before after : List Path} {path : Path} {expansions : List Expansion} {walk : Walk}
      {next : Option Object} : registry.pathsOf start.model = .ok (before ++ path :: after) →
      expandEach (expandPath reuse registry relations maxDepth start) { chain := [start] } before =
        .ok (expansions, walk) →
      relations.follow start path.hops = .ok next → Visits maxDepth walk next
  | above {room : Nat} {walk middle : Walk} {object : Object} {before after : List Path}
      {path : Path} {expansions : List Expansion} {next : Option Object} :
      Visits (room + 1) walk (some object) → object ∉ walk.chain →
      walk.fromNotes reuse object = none →
      registry.pathsOf object.model = .ok (before ++ path :: after) →
      expandEach (expandPath reuse registry relations room object) (walk.enter object) before =
        .ok (expansions, middle) →
      relations.follow object path.hops = .ok next → Visits room middle next

/-- Beyond the chain the walk comes over the first objects of the way to one that it takes from its
notes. -/
def LeavesForNotes (chain way : List Object) : Prop :=
  ∃ before object after room walk conditions, way = before ++ object :: after ∧
    Visits reuse registry relations start (room + 1) walk (some object) ∧
    walk.chain = before.reverse ++ chain ∧ object ∉ walk.chain ∧
    walk.fromNotes reuse object = some conditions

/-- The way fits into the room, or the walk leaves it for its notes. -/
def Covers (room : Nat) (chain way : List Object) : Prop :=
  way.length ≤ room ∨ LeavesForNotes reuse registry relations start chain way

variable {reuse registry relations start}

theorem Covers.cons {room : Nat} {chain way : List Object} {object : Object}
    (h : Covers reuse registry relations start room (object :: chain) way) :
    Covers reuse registry relations start (room + 1) chain (object :: way) := by
  rcases h with short | ⟨before, later, after, room', walk, conditions, rfl, visit, chain', fresh, known⟩
  · exact .inl (Nat.succ_le_succ short)
  · exact .inr ⟨object :: before, later, after, room', walk, conditions, rfl, visit,
      by simp [chain'], fresh, known⟩

/-! ### What holds at each visit -/

theorem expandEach_entered {room : Nat} {object : Object} {walk last : Walk} {paths : List Path}
    {expansions : List Expansion} (notes : NotesUnfold registry relations walk)
    (h : expandEach (expandPath reuse registry relations room object) walk paths =
      .ok (expansions, last)) :
    last.chain = walk.chain ∧ NotesUnfold registry relations last := by
  refine ⟨expandEach_chain expandPath_chain h, ?_⟩
  have keeps : ∀ w path e w', NotesUnfold registry relations w →
      expandPath reuse registry relations room object w path = .ok (e, w') →
      NotesUnfold registry relations w' ∧ True := by
    intro w path e w' notes stepped
    obtain ⟨next, _, stepped⟩ := expandPath_ok stepped
    exact ⟨(expandWith_keeps notes stepped).2.1, trivial⟩
  exact (expandEach_keeps _ (fun _ _ => True) keeps notes h).1

namespace Visits

theorem notes {room : Nat} {walk : Walk} {next : Option Object}
    (visit : Visits reuse registry relations start room walk next) :
    NotesUnfold registry relations walk := by
  induction visit with
  | first _ expanded _ => exact (expandEach_entered (notesUnfold_empty _) expanded).2
  | above _ _ _ _ expanded _ ih => exact (expandEach_entered (notesUnfold_enter ih _) expanded).2

theorem chain_first {before : List Path} {expansions : List Expansion} {walk : Walk}
    (expanded : expandEach (expandPath reuse registry relations maxDepth start) { chain := [start] }
      before = .ok (expansions, walk)) : walk.chain = [start] :=
  (expandEach_entered (notesUnfold_empty _) expanded).1

theorem chain_above {room : Nat} {walk middle : Walk} {object : Object} {before : List Path}
    {expansions : List Expansion}
    (visit : Visits reuse registry relations start (room + 1) walk (some object))
    (expanded : expandEach (expandPath reuse registry relations room object) (walk.enter object)
      before = .ok (expansions, middle)) :
    middle.chain = object :: walk.chain :=
  (expandEach_entered (notesUnfold_enter visit.notes object) expanded).1

/-- The chain and the room together never change. -/
theorem chain_length {room : Nat} {walk : Walk} {next : Option Object}
    (visit : Visits reuse registry relations start room walk next) :
    walk.chain.length + room = maxDepth + 1 := by
  induction visit with
  | first _ expanded _ =>
    rw [chain_first expanded, List.length_singleton, Nat.add_comm]
  | above visit _ _ _ expanded _ ih =>
    rw [chain_above visit expanded, List.length_cons, Nat.add_assoc, Nat.add_comm 1]
    exact ih

/-- The chain goes back to the start. -/
theorem chain_start {room : Nat} {walk : Walk} {next : Option Object}
    (visit : Visits reuse registry relations start room walk next) :
    ∃ above, walk.chain = above ++ [start] := by
  induction visit with
  | first _ expanded _ => exact ⟨[], chain_first expanded⟩
  | @above _ _ _ object _ _ _ _ _ visit _ _ _ expanded _ ih =>
    obtain ⟨above, chain⟩ := ih
    refine ⟨object :: above, ?_⟩
    rw [chain_above visit expanded, chain]
    rfl

theorem chain_ne_nil {room : Nat} {walk : Walk} {next : Option Object}
    (visit : Visits reuse registry relations start room walk next) : walk.chain ≠ [] := by
  obtain ⟨above, chain⟩ := visit.chain_start
  rw [chain]
  exact List.append_ne_nil_of_right_ne_nil above (List.cons_ne_nil start [])

/-- What is visited is a parent of the latest object on the chain, that one of the one before, and so
on. -/
theorem chain_parents {room : Nat} {walk : Walk} {next : Option Object}
    (visit : Visits reuse registry relations start room walk next) : ∀ object ∈ next,
    (object :: walk.chain).IsChain fun parent child => IsParent registry relations child parent := by
  have leads {child parent : Object} {before after : List Path} {path : Path} {next : Option Object}
      (declared : registry.pathsOf child.model = .ok (before ++ path :: after))
      (led : relations.follow child path.hops = .ok next) (mem : parent ∈ next) :
      IsParent registry relations child parent := by
    obtain rfl := Option.mem_def.mp mem
    exact ⟨_, declared, path, List.mem_append_right _ List.mem_cons_self, led⟩
  induction visit with
  | first declared expanded led =>
    intro object mem
    rw [chain_first expanded]
    exact .cons_cons (leads declared led mem) (.singleton start)
  | above visit _ _ declared expanded led ih =>
    intro object mem
    rw [chain_above visit expanded]
    exact .cons_cons (leads declared led mem) (ih _ rfl)

section Object

variable {room : Nat} {walk : Walk} {object : Object}

theorem transGen_of_mem (visit : Visits reuse registry relations start room walk (some object))
    {child : Object} (mem : child ∈ walk.chain) :
    TransGen (IsParent registry relations) child object := by
  have rises := visit.chain_parents object rfl
  clear visit
  generalize walk.chain = chain at mem rises
  induction chain generalizing object with
  | nil => cases mem
  | cons below chain ih =>
    obtain ⟨leads, rises⟩ := List.isChain_cons_cons.mp rises
    rcases List.mem_cons.mp mem with rfl | mem
    · exact .single leads
    · exact .tail (ih mem rises) leads

theorem reached (visit : Visits reuse registry relations start room walk (some object)) :
    ReflTransGen (IsParent registry relations) start object := by
  obtain ⟨above, chain⟩ := visit.chain_start
  refine (visit.transGen_of_mem ?_).to_reflTransGen
  rw [chain]
  exact List.mem_append_right _ List.mem_cons_self

/-- The chain and the object visited are a way from the start. -/
theorem exists_way (visit : Visits reuse registry relations start room walk (some object)) :
    ∃ way, (start :: way).IsChain (IsParent registry relations) ∧
      way.length = walk.chain.length := by
  obtain ⟨above, chain⟩ := visit.chain_start
  have rises := visit.chain_parents object rfl
  rw [← List.isChain_reverse, chain] at rises
  refine ⟨(object :: above).reverse, ?_, ?_⟩
  · simpa using rises
  · simp [chain]

end Object

theorem registered (grounded : relations.Grounded registry)
    (known : registry.isRegistered start.model = true) {room : Nat} {walk : Walk}
    {next : Option Object} (visit : Visits reuse registry relations start room walk next) :
    ∀ object ∈ next, registry.isRegistered object.model = true := by
  induction visit with
  | @first _ _ path _ _ _ _ _ led =>
    obtain ⟨next', led', sound⟩ := follow_grounded grounded known path.hops
    cases led.symm.trans led'
    exact sound
  | @above _ _ _ object _ _ path _ _ _ _ _ _ _ led ih =>
    obtain ⟨next', led', sound⟩ := follow_grounded grounded (ih object rfl) path.hops
    cases led.symm.trans led'
    exact sound

end Visits

end Walk

end Entitlement.Condition
