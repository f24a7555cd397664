import Entitlement.Access.Restriction
import Entitlement.Proofs.Inheritance.Witness
import Entitlement.Proofs.Store.Change

/-!
# What decisions read

`Contents` says what the reads behind a decision answer, and nothing about decisions. A store in memory
answers them from its roles and entries (`Memory.contents`).
-/

namespace Entitlement

/-- Roles and entries that a store answers reads from. -/
structure Contents {σ : Type} [Store σ] (store : σ) where
  rolesOf : String → List Role
  entries : List Entry
  rolesOf_ok : ∀ subject, Store.rolesOf store subject = .ok (rolesOf subject)
  grantedObjects_ok : ∀ ids permission, ∃ objects,
    Store.grantedObjects store ids permission = .ok objects ∧ ∀ object, object ∈ objects ↔
      ∃ entry ∈ entries, entry.role ∈ ids ∧ entry.lists permission = true ∧ entry.target = object

def Memory.contents (m : Memory) : Contents m where
  rolesOf := m.rolesOf
  entries := m.entries.values
  rolesOf_ok _ := rfl
  grantedObjects_ok ids permission :=
    ⟨m.grantedObjects ids permission, rfl, fun _ => mem_grantedObjects⟩

/-- The relations of a site in memory can be followed if none is pinned to fail. -/
theorem Memory.grounded {site : Site Memory}
    (stored : ∀ object ∈ site.store.relations.values,
      site.registry.isRegistered object.model = true)
    (pinned : ∀ pin ∈ site.pinned.values,
      ∃ object, pin = .leadsTo object ∧ site.registry.isRegistered object.model = true) :
    site.relations.Grounded site.registry := by
  intro object _ relation
  unfold Site.relations
  cases found : site.pinned.get? ⟨object, relation⟩ with
  | none =>
    refine ⟨site.store.relations.get? ⟨object, relation⟩, rfl, fun parent mem => ?_⟩
    exact stored parent (SortedMap.mem_values_iff.mpr ⟨_, Option.mem_def.mp mem⟩)
  | some pin =>
    obtain ⟨parent, rfl, known⟩ := pinned pin (SortedMap.mem_values_iff.mpr ⟨_, found⟩)
    refine ⟨some parent, rfl, fun other mem => ?_⟩
    cases mem
    exact known

namespace Contents

variable {σ : Type} [Store σ]

/-- Some role of the user has an entry on the object that lists the permission. -/
def Granted {store : σ} (contents : Contents store) (user : User) (permission : Permission)
    (object : Object) : Prop :=
  ∃ role ∈ contents.rolesOf user.subject, ∃ entry ∈ contents.entries,
    entry.role = role.id ∧ entry.target = object ∧ entry.lists permission = true

variable {site : Site σ} (contents : Contents site.store)

theorem site_rolesOf (user : User) : site.rolesOf user = .ok (contents.rolesOf user.subject) :=
  contents.rolesOf_ok user.subject

theorem site_grantedObjects (user : User) (permission : Permission) :
    ∃ grants, site.grantedObjects (contents.rolesOf user.subject) permission = .ok grants ∧
      ∀ object, object ∈ grants ↔ contents.Granted user permission object := by
  unfold Site.grantedObjects
  split
  · rename_i none
    rw [List.isEmpty_iff] at none
    refine ⟨∅, rfl, fun object => iff_of_false (SortedSet.not_mem_empty object) ?_⟩
    rintro ⟨role, mem, _⟩
    rw [none] at mem
    cases mem
  · obtain ⟨grants, read, mem_iff⟩ :=
      contents.grantedObjects_ok ((contents.rolesOf user.subject).map (·.id)) permission
    refine ⟨grants, read, fun object => ?_⟩
    rw [mem_iff]
    constructor
    · rintro ⟨entry, stored, among, lists, on⟩
      obtain ⟨role, held, same⟩ := List.mem_map.mp among
      exact ⟨role, held, entry, stored, same.symm, on, lists⟩
    · rintro ⟨role, held, entry, stored, same, on, lists⟩
      exact ⟨entry, stored, List.mem_map.mpr ⟨role, held, same.symm⟩, lists, on⟩

end Contents

/-! ### A sample -/

namespace Sample

def document : Model := ⟨"app", "document", by decide, by decide⟩

def folder : Model := ⟨"app", "folder", by decide, by decide⟩

def view : Permission := ⟨"app", "view", by decide, by decide⟩

def reader : RoleId := Uuid.drawn 1

/-- Puts a document into a folder, on which a role may view what is in it. -/
def filing : List Change := [
  .createRole ⟨reader, "reader", ∅, .ofList ["staff"]⟩,
  .addMember "staff" "ann",
  .addPermission ⟨folder, "f"⟩ reader view,
  .setRelation ⟨document, "d"⟩ "folder" ⟨folder, "f"⟩]

def library : Site Memory where
  registry := {
    applicable := .ofList [(document, .ofList [view]), (folder, .ofList [view])]
    inheritance := .ofList [(document, [⟨["folder"], by decide, by decide⟩])] }
  store := Change.run ∅ filing

def ann : User := ({} : Overrides).user "ann"

theorem library_grounded : library.relations.Grounded library.registry :=
  Memory.grounded (by decide +kernel) (by intro pin mem; cases mem)

end Sample

end Entitlement
