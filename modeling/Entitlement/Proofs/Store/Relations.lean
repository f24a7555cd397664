import Entitlement.Proofs.Reach
import Entitlement.Proofs.Store.Change

/-!
# Relations without cycles

The relations of a store in memory never lead from an object back to itself, and a relation is refused
exactly if it would make them do so in place of what it led to before (`Memory.setRelation_fails_iff`).
-/

namespace Entitlement

open Relation (ReflTransGen TransGen)

/-- Some stored relation of the child leads to the parent. -/
def Leads (stored : SortedMap RelationKey Object) (child parent : Object) : Prop :=
  ∃ relation, stored.get? ⟨child, relation⟩ = some parent

/-- No object is to be had from itself over one or more stored relations. -/
def Acyclic (stored : SortedMap RelationKey Object) : Prop :=
  ∀ object, ¬ TransGen (Leads stored) object object

variable {stored : SortedMap RelationKey Object} {key : RelationKey} {parent : Object}

theorem acyclic_empty : Acyclic ∅ := by
  intro object way
  obtain ⟨_, _, _, found⟩ := TransGen.tail'_iff.mp way
  cases found

theorem Acyclic.not_leads (acyclic : Acyclic stored) (object : Object) :
    ¬ Leads stored object object :=
  fun leads => acyclic object (.single leads)

/-- With fewer relations there are no more cycles. -/
theorem Acyclic.of_le {fewer : SortedMap RelationKey Object} (acyclic : Acyclic stored)
    (kept : Leads fewer ≤ Leads stored) : Acyclic fewer := by
  intro object way
  exact acyclic object (TransGen.mono kept _ _ way)

/-! ### One relation more -/

theorem leads_insert : Leads (stored.insert key parent) key.child parent := by
  refine ⟨key.relation, ?_⟩
  rw [SortedMap.get?_insert, if_pos rfl]

/-- Only relations of the child itself are replaced. -/
theorem Leads.insert {child next : Object} (leads : Leads stored child next)
    (other : child ≠ key.child) : Leads (stored.insert key parent) child next := by
  obtain ⟨relation, found⟩ := leads
  refine ⟨relation, ?_⟩
  rw [SortedMap.get?_insert, if_neg]
  · exact found
  · rintro rfl
    exact other rfl

theorem Leads.of_insert {child next : Object} (leads : Leads (stored.insert key parent) child next) :
    Leads stored child next ∨ child = key.child ∧ next = parent := by
  obtain ⟨relation, found⟩ := leads
  rw [SortedMap.get?_insert] at found
  split at found
  · rename_i same
    cases found
    exact .inr ⟨congrArg RelationKey.child same, rfl⟩
  · exact .inl ⟨relation, found⟩

/-- A way over the new relation sets out for its child over old ones and goes on from its parent over
old ones. -/
theorem transGen_of_insert {first last : Object}
    (way : TransGen (Leads (stored.insert key parent)) first last) :
    TransGen (Leads stored) first last ∨
      ReflTransGen (Leads stored) first key.child ∧ ReflTransGen (Leads stored) parent last := by
  induction way with
  | single leads =>
    rcases leads.of_insert with old | ⟨rfl, rfl⟩
    · exact .inl (.single old)
    · exact .inr ⟨.refl, .refl⟩
  | tail _ leads ih =>
    rcases leads.of_insert with old | ⟨rfl, rfl⟩
    · rcases ih with before | ⟨arrives, onwards⟩
      · exact .inl (.tail before old)
      · exact .inr ⟨arrives, .tail onwards old⟩
    · rcases ih with before | ⟨arrives, _⟩
      · exact .inr ⟨before.to_reflTransGen, .refl⟩
      · exact .inr ⟨arrives, .refl⟩

/-- A relation closes a cycle exactly if its child is to be had from its parent. What it led to before
makes no difference, for the first arrival at the child does not go over it. -/
theorem acyclic_insert_iff (acyclic : Acyclic stored) :
    Acyclic (stored.insert key parent) ↔ ¬ ReflTransGen (Leads stored) parent key.child := by
  constructor
  · intro after way
    have kept : (fun child next => Leads stored child next ∧ child ≠ key.child) ≤
        Leads (stored.insert key parent) :=
      fun _ _ step => step.1.insert step.2
    have back := ReflTransGen.mono kept _ _ (reflTransGen_until_first way)
    exact after key.child (.head' leads_insert back)
  · intro apart object way
    rcases transGen_of_insert way with before | ⟨arrives, onwards⟩
    · exact acyclic object before
    · exact apart (onwards.trans arrives)

theorem leads_erase_le : Leads (stored.erase key) ≤ Leads stored := by
  rintro child next ⟨relation, found⟩
  rw [SortedMap.get?_erase] at found
  split at found
  · cases found
  · exact ⟨relation, found⟩

namespace Memory

variable {m m' : Memory}

theorem mem_links_iff {child parent : Object} :
    (child, parent) ∈ m.links ↔ Leads m.relations child parent := by
  rw [links, List.mem_map]
  constructor
  · rintro ⟨⟨⟨_, relation⟩, _⟩, mem, same⟩
    cases same
    exact ⟨relation, SortedMap.mem_toList_iff.mp mem⟩
  · rintro ⟨relation, found⟩
    exact ⟨(⟨child, relation⟩, parent), SortedMap.mem_toList_iff.mpr found, rfl⟩

theorem reaches_links_iff {start goal : Object} :
    reaches m.links start goal = true ↔ ReflTransGen (Leads m.relations) start goal := by
  have same : (fun child parent => (child, parent) ∈ m.links) = Leads m.relations := by
    funext child parent
    exact propext mem_links_iff
  rw [reaches_iff, same]

theorem setRelation_cases (acyclic : Acyclic m.relations) (child : Object) (relation : String)
    (parent : Object) :
    (Acyclic (m.relations.insert ⟨child, relation⟩ parent) ∧
      m.setRelation child relation parent =
        .ok { m with relations := m.relations.insert ⟨child, relation⟩ parent }) ∨
    (¬ Acyclic (m.relations.insert ⟨child, relation⟩ parent) ∧
      m.setRelation child relation parent = .error (.ownAncestor relation child)) := by
  rw [acyclic_insert_iff acyclic, ← reaches_links_iff, setRelation]
  cases reaches m.links parent child with
  | true => simp
  | false => simp

/-! ### Runs -/

theorem serve_acyclic (acyclic : Acyclic m.relations) {change : Change}
    (served : change.serve m = .ok m') : Acyclic m'.relations := by
  cases change with
  | setRelation child relation parent =>
    rcases setRelation_cases acyclic child relation parent with ⟨after, stored⟩ | ⟨_, refused⟩
    · cases stored.symm.trans served
      exact after
    · cases refused.symm.trans served
  | clearRelation child relation =>
    cases served
    exact acyclic.of_le leads_erase_le
  | _ =>
    rw [(serve_frame served).relations (by simp [Change.areas])]
    exact acyclic

theorem run_acyclic (acyclic : Acyclic m.relations) (changes : List Change) :
    Acyclic (Change.run m changes).relations := by
  induction changes generalizing m with
  | nil => exact acyclic
  | cons change rest ih =>
    rw [Change.run_cons]
    cases served : change.serve m with
    | error failure => exact ih acyclic
    | ok next => exact ih (serve_acyclic acyclic served)

/-- Whatever a store in memory has been asked for, its relations have no cycle and no object leads to
itself. A relation is refused exactly if it would close a cycle in place of what it led to before, and
then nothing changes; a relation that is set or cleared changes in nothing but where it leads. -/
theorem setRelation_fails_iff (changes : List Change) :
    let m : Memory := Change.run ∅ changes
    Acyclic m.relations ∧ (∀ object, ¬ Leads m.relations object object) ∧
    ∀ child relation,
      (∀ parent,
        ((m.setRelation child relation parent).mapError Failure.report =
            .error (.validation ("relation '" ++ relation ++ "' of '" ++ child.toText ++
              "' would make it its own ancestor")) ↔
          ¬ Acyclic (m.relations.insert ⟨child, relation⟩ parent)) ∧
        (∀ failure, m.setRelation child relation parent = .error failure →
          failure = .ownAncestor relation child ∧
            Change.run m [.setRelation child relation parent] = m) ∧
        ∀ m', m.setRelation child relation parent = .ok m' →
          m' = { m with relations := m'.relations } ∧
            ∀ key, m'.relations.get? key =
              if key = ⟨child, relation⟩ then some parent else m.relations.get? key) ∧
      m.clearRelation child relation =
        { m with relations := (m.clearRelation child relation).relations } ∧
      ∀ key, (m.clearRelation child relation).relations.get? key =
        if key = ⟨child, relation⟩ then none else m.relations.get? key := by
  intro m
  have acyclic : Acyclic m.relations := run_acyclic acyclic_empty changes
  refine ⟨acyclic, acyclic.not_leads, fun child relation => ⟨fun parent => ?_, rfl, fun key => ?_⟩⟩
  · rcases setRelation_cases acyclic child relation parent with ⟨after, stored⟩ | ⟨cyclic, refused⟩
    · rw [stored]
      refine ⟨iff_of_false (fun failed => ?_) (fun cyclic => cyclic after), fun failure failed => ?_,
        fun m' set => ?_⟩
      · cases failed
      · cases failed
      · cases set
        exact ⟨rfl, fun key => SortedMap.get?_insert _ _ _ _⟩
    · have unchanged : Change.run m [.setRelation child relation parent] = m := by
        change (m.setRelation child relation parent).toOption.getD m = m
        rw [refused]
        rfl
      rw [refused]
      refine ⟨iff_of_true rfl cyclic, fun failure failed => ?_, fun m' set => ?_⟩
      · cases failed
        exact ⟨rfl, unchanged⟩
      · cases set
  · exact SortedMap.get?_erase _ _ _

end Memory

end Entitlement
