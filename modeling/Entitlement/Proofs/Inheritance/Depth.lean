import Entitlement.Proofs.Inheritance.Decision

/-!
# The depth limit

Without notes, the condition on an object holds exactly if a witness of at most `maxDepth` paths gives
access (`ofObjectWith_false_holds_iff`). With them, so does a witness that the walk leaves for its
notes, however long (`ofObject_holds_iff`); where models declare at most one path there is none such
(`notesAddNothing`).
-/

namespace Entitlement

open Condition Condition.Walk

variable (registry : Registry) (relations : Relations) (granted : Object → Prop) (object : Object)

/-- A chain of at most `maxDepth` paths gives access to the object. -/
def WithinDepth : Prop :=
  ∃ way, Witness registry relations granted object way ∧ way.length ≤ maxDepth

/-- A chain that the walk from the object leaves for its notes gives access to the object. -/
def ThroughNotes : Prop :=
  ∃ way, Witness registry relations granted object way ∧
    LeavesForNotes true registry relations object [object] way

/-- Where a chain that is left for the notes gives access, one of at most `maxDepth` paths does too. -/
def NotesAddNothing : Prop :=
  ThroughNotes registry relations granted object → WithinDepth registry relations granted object

variable {registry relations granted object}

theorem WithinDepth.reordered {registry' : Registry} (reorders : registry.Reorders registry')
    (h : WithinDepth registry relations granted object) :
    WithinDepth registry' relations granted object := by
  obtain ⟨way, witness, short⟩ := h
  exact ⟨way, witness.reordered reorders, short⟩

namespace Condition

theorem not_leavesForNotes {start : Object} {chain way : List Object} :
    ¬ LeavesForNotes false registry relations start chain way := by
  rintro ⟨_, _, _, _, _, _, _, _, _, _, known⟩
  cases known

theorem ofObjectWith_false_holds_iff (grounded : relations.Grounded registry)
    (known : registry.isRegistered object.model = true) :
    ∃ condition, ofObjectWith false registry relations object = .ok condition ∧
      ∀ grants, condition.holds grants = true ↔
        WithinDepth registry relations (· ∈ grants) object := by
  obtain ⟨condition, built, holds_iff⟩ := ofObjectWith_holds_iff false grounded known
  refine ⟨condition, built, fun grants => ?_⟩
  rw [holds_iff]
  constructor
  · rintro ⟨way, witness, short | leaves⟩
    · exact ⟨way, witness, short⟩
    · exact absurd leaves not_leavesForNotes
  · rintro ⟨way, witness, short⟩
    exact ⟨way, witness, .inl short⟩

theorem ofObject_holds_iff (grounded : relations.Grounded registry)
    (known : registry.isRegistered object.model = true) :
    ∃ condition, ofObject registry relations object = .ok condition ∧
      ∀ grants, condition.holds grants = true ↔
        WithinDepth registry relations (· ∈ grants) object ∨
          ThroughNotes registry relations (· ∈ grants) object := by
  obtain ⟨condition, built, holds_iff⟩ := ofObjectWith_holds_iff true grounded known
  rw [ofObjectWith_true] at built
  refine ⟨condition, built, fun grants => ?_⟩
  rw [holds_iff]
  constructor
  · rintro ⟨way, witness, short | leaves⟩
    · exact .inl ⟨way, witness, short⟩
    · exact .inr ⟨way, witness, leaves⟩
  · rintro (⟨way, witness, short⟩ | ⟨way, witness, leaves⟩)
    · exact ⟨way, witness, .inl short⟩
    · exact ⟨way, witness, .inr leaves⟩

/-! ### Models with one path -/

theorem eq_nil_of_single {before after : List Path} {path : Path} {model : Model}
    (single : ∀ model paths, registry.pathsOf model = .ok paths → paths.length ≤ 1)
    (declared : registry.pathsOf model = .ok (before ++ path :: after)) : before = [] := by
  have bound := single _ _ declared
  simp only [List.length_append, List.length_cons] at bound
  apply List.length_eq_zero_iff.mp
  omega

theorem Walk.Visits.noted_eq_empty {reuse : Bool}
    (single : ∀ model paths, registry.pathsOf model = .ok paths → paths.length ≤ 1) {room : Nat}
    {walk : Walk} {next : Option Object}
    (visit : Visits reuse registry relations object room walk next) : walk.noted = ∅ := by
  induction visit with
  | first declared expanded _ =>
    rw [eq_nil_of_single single declared] at expanded
    cases expanded
    rfl
  | above _ _ _ declared expanded _ ih =>
    rw [eq_nil_of_single single declared] at expanded
    cases expanded
    exact ih

/-- Where models declare at most one path, nothing is ever taken from the notes. -/
theorem notesAddNothing
    (single : ∀ model paths, registry.pathsOf model = .ok paths → paths.length ≤ 1) :
    NotesAddNothing registry relations granted object := by
  rintro ⟨_, _, _, _, _, _, _, _, _, visit, _, _, known⟩
  rw [fromNotes, visit.noted_eq_empty single] at known
  cases known

end Condition

end Entitlement
