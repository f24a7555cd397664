import Entitlement.Proofs.Store.Change
import Entitlement.Proofs.Store.Tables

/-!
# Identifiers and labels of stored roles

A store in memory keeps its roles apart in both, whatever it is asked for (`Memory.run_labelled`), so that
listing them by label repeats none and puts them in strict order.
-/

namespace Entitlement.Memory

variable {m m' : Memory}

theorem Keyed.ids_nodup (keyed : m.Keyed) : (m.roles.values.map (·.id)).Nodup := by
  have apart : m.roles.Apart (·.id) := by
    intro id id' role role' found found' same
    exact (keyed.roles id role found).symm.trans (same.trans (keyed.roles id' role' found'))
  exact List.pairwise_map.mpr apart.pairwise_values

/-- Different roles have different labels. -/
def Labelled (m : Memory) : Prop := m.roles.Apart (·.label)

theorem createRole_labelled (labelled : m.Labelled) {role : Role}
    (served : m.createRole role = .ok m') : m'.Labelled := by
  obtain ⟨free, rfl⟩ := createRole_ok_iff.mp served
  refine labelled.insert fun id stored found same => ?_
  exact absurd same (free id stored found)

theorem editRole_labelled (labelled : m.Labelled) {id : RoleId} {edit : RoleEdit} {changed : Bool}
    (served : m.editRole id edit = .ok (changed, m')) : m'.Labelled := by
  obtain ⟨role, normal, found, _, _, rfl⟩ := editRole_ok served
  refine labelled.insert fun other stored found' same => ?_
  rw [edit_label] at same
  exact labelled other id stored role found' found same

theorem deleteRole_labelled (labelled : m.Labelled) (id : RoleId) : (m.deleteRole id).Labelled :=
  labelled.of_fewer (SortedMap.forall_erase fun _ _ found => found)

theorem serve_labelled (labelled : m.Labelled) {change : Change} (served : change.serve m = .ok m') :
    m'.Labelled := by
  have frame := serve_frame served
  unfold Labelled
  cases change with
  | createRole role => exact createRole_labelled labelled served
  | editRole id edit =>
    obtain ⟨⟨changed, m''⟩, edited, rfl⟩ := map_ok served
    exact editRole_labelled labelled edited
  | deleteRole id =>
    cases served
    exact deleteRole_labelled labelled id
  | _ =>
    rw [frame.roles (by simp [Change.areas])]
    exact labelled

theorem run_labelled (labelled : m.Labelled) (changes : List Change) :
    (Change.run m changes).Labelled := by
  induction changes generalizing m with
  | nil => exact labelled
  | cons change rest ih =>
    rw [Change.run_cons]
    cases served : change.serve m with
    | error failure => exact ih labelled
    | ok next => exact ih (serve_labelled labelled served)

theorem empty_labelled : Labelled ∅ := by
  intro id id' role role' found
  cases found

theorem Labelled.listed (labelled : m.Labelled) :
    (sortOn (·.label) m.roles.values).Pairwise fun a b => compare a.label b.label = .lt := by
  have apart : (sortOn (·.label) m.roles.values).Pairwise fun a b => a.label ≠ b.label :=
    ((sortOn_perm _ _).pairwise_iff fun differ => differ.symm).mpr labelled.pairwise_values
  refine ((sortOn_sorted _ _).and apart).imp fun {a b} ⟨upTo, differ⟩ => ?_
  rcases Ordering.isLE_iff_eq_lt_or_eq_eq.mp upTo with less | same
  · exact less
  · exact absurd (Std.LawfulEqOrd.eq_of_compare same) differ

end Entitlement.Memory
