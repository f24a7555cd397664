import Entitlement.Proofs.Access.Restriction

/-!
# How far access reaches

`restrict_within_depth_iff` says when the depth limit limits access: exactly where the notes add
nothing, what is kept has a witness of at most `maxDepth` paths, and is what the condition built without
notes would keep. `restrict_beyond_depth` is a site where they do add something.
-/

namespace Entitlement

open Condition (ofObjectWith ofObjectWith_false_holds_iff)

namespace Site

variable {σ : Type} [Store σ] {site : Site σ} {permission : Permission} {user : User}

/-- What the depth limit allows is decided for each candidate on its own. It is kept only for a witness
of at most `maxDepth` paths, and kept exactly if the condition built without notes holds, if and only
if the notes add nothing for it or the permission does not apply. -/
theorem restrict_within_depth_iff (contents : Contents site.store)
    (grounded : site.relations.Grounded site.registry)
    (ordinary : user.globalAccess? (contents.rolesOf user.subject) permission = none) :
    ∃ (grants : SortedSet Object) (passes : Object → Bool),
      site.grantedObjects (contents.rolesOf user.subject) permission = .ok grants ∧
      (∀ {α : Type} (object : α → Object) (candidates : List α),
        (∀ c ∈ candidates, site.registry.isRegistered (object c).model = true) →
        site.restrict permission object candidates user =
          .ok (candidates.filter fun c => passes (object c))) ∧
      ∀ object, site.registry.isRegistered object.model = true →
        ∃ afresh, ofObjectWith false site.registry site.relations object = .ok afresh ∧
          ((passes object = true →
              WithinDepth site.registry site.relations (contents.Granted user permission) object) ↔
            (site.registry.applies object.model permission = true →
              NotesAddNothing site.registry site.relations (contents.Granted user permission)
                object)) ∧
          (passes object =
              (site.registry.applies object.model permission && afresh.holds grants) ↔
            (site.registry.applies object.model permission = true →
              NotesAddNothing site.registry site.relations (contents.Granted user permission)
                object)) := by
  obtain ⟨grants, read, granted⟩ := contents.site_grantedObjects user permission
  refine ⟨grants, site.keeps permission grants, read, fun object candidates known =>
    restrict_ok contents grounded ordinary read object candidates known, fun object known => ?_⟩
  obtain ⟨afresh, built, afresh_iff⟩ := ofObjectWith_false_holds_iff grounded known
  refine ⟨afresh, built, ?_⟩
  have same : (· ∈ grants) = contents.Granted user permission :=
    funext fun object => propext (granted object)
  have holds_iff := afresh_iff grants
  rw [same] at holds_iff
  have keeps_iff := keeps_iff contents grounded granted known
  unfold NotesAddNothing
  cases applies : site.registry.applies object.model permission with
  | false =>
    rw [applies] at keeps_iff
    simp [keeps_iff, Bool.eq_false_iff]
  | true =>
    rw [applies, eq_self, true_and] at keeps_iff
    rw [Bool.true_and]
    constructor
    · rw [keeps_iff]
      exact ⟨fun within _ through => within (.inr through),
        fun anyway kept => kept.elim id (anyway rfl)⟩
    · rw [Bool.eq_iff_iff, keeps_iff, holds_iff]
      exact ⟨fun alike _ through => alike.mp (.inr through),
        fun anyway => ⟨fun kept => kept.elim id (anyway rfl), .inl⟩⟩

open Sample in
theorem restrict_within_depth_in_library :
    ∃ passes : Object → Bool,
      library.restrict view id [⟨document, "d"⟩] ann =
        .ok ([⟨document, "d"⟩].filter fun c => passes (id c)) ∧
      (passes ⟨document, "d"⟩ = true → WithinDepth library.registry library.relations
        (library.store.contents.Granted ann view) ⟨document, "d"⟩) := by
  obtain ⟨_, passes, _, kept, within⟩ := restrict_within_depth_iff library.store.contents
    library_grounded (show ann.globalAccess? (library.store.rolesOf "ann") view = none by decide +kernel)
  have known : library.registry.isRegistered document = true := by decide +kernel
  have stored : ∀ paths ∈ library.registry.inheritance.values, paths.length ≤ 1 := by decide +kernel
  have single : ∀ model paths, library.registry.pathsOf model = .ok paths → paths.length ≤ 1 := by
    intro model paths declared
    rcases eq_nil_or_mem_of_pathsOf declared with rfl | mem
    · exact Nat.zero_le 1
    · exact stored paths mem
  obtain ⟨_, _, limited, _⟩ := within ⟨document, "d"⟩ known
  exact ⟨passes, kept id _ (by simp [known]), limited.mpr fun _ => Condition.notesAddNothing single⟩

/-! ### Two ways up a tower -/

end Site

namespace Sample

def gate : Object := ⟨⟨"b", "g", by decide, by decide⟩, "g"⟩

def stair (key : String) : Object := ⟨⟨"b", "s", by decide, by decide⟩, key⟩

def roof : Object := ⟨⟨"b", "r", by decide, by decide⟩, "r"⟩

def near : Path := ⟨["near"], by decide, by decide⟩

def far : Path := ⟨["far"], by decide, by decide⟩

def up : Path := ⟨["up"], by decide, by decide⟩

/-- The 29 stairs `A`, `B` and so on that both ways have in common, and the roof above them. -/
def spiral : List Object :=
  (List.range 29).map (fun n => stair (String.singleton (Char.ofNat (65 + n)))) ++ [roof]

/-- Each object leads up to the next one. -/
def ascent (way : List Object) : List (RelationKey × Object) :=
  (way.zip way.tail).map fun (lower, upper) => (⟨lower, "up"⟩, upper)

/-- From the gate the near way comes to the spiral over two stairs and the far way over three. All but
the first ones of these and the gate may be viewed, except the second stair on the near way. -/
def tower (paths : List Path) : Site Memory where
  registry := {
    applicable := .ofList [(gate.model, .ofList [view]), (roof.model, .ofList [view])]
    inheritance := .insert (.ofList [((stair "x").model, [up])]) gate.model paths }
  store := {
    roles := .ofList [(reader, ⟨reader, "reader", ∅, .ofList ["staff"]⟩)]
    members := .ofList [("staff", .ofList ["ann"])]
    entries := .ofList ((stair "y" :: stair "z" :: spiral).map fun object =>
      (⟨object, reader⟩, ⟨.numbered 1, object, reader, .ofList [view]⟩))
    relations := .ofList (
      [(⟨gate, "near"⟩, stair "v"), (⟨gate, "far"⟩, stair "x")] ++
      ascent ([stair "v", stair "w"] ++ spiral) ++
      ascent [stair "x", stair "y", stair "z", stair "A"]) }

end Sample

namespace Site

open Sample

/-- From the gate the near way is barred and the far one has 33 objects. The object is kept after the
near way, which leaves the spiral in the notes, and dropped after the far one. -/
theorem restrict_beyond_depth :
    (tower [near, far]).restrict view id [gate] ann = .ok [gate] ∧
    (tower [far, near]).restrict view id [gate] ann = .ok [] ∧
    ¬ WithinDepth (tower [near, far]).registry (tower [near, far]).relations
      ((tower [near, far]).store.contents.Granted ann view) gate ∧
    ∃ afresh grants,
      ofObjectWith false (tower [near, far]).registry (tower [near, far]).relations gate = .ok afresh ∧
      (tower [near, far]).grantedObjects ((tower [near, far]).store.rolesOf "ann") view = .ok grants ∧
      afresh.holds grants = false := by
  have pinned : ∀ paths, ∀ pin ∈ (tower paths).pinned.values,
      ∃ object, pin = .leadsTo object ∧ (tower paths).registry.isRegistered object.model = true := by
    intro paths pin mem
    cases mem
  have nearFirst : (tower [near, far]).relations.Grounded (tower [near, far]).registry :=
    Memory.grounded (by decide +kernel) (pinned _)
  have farFirst : (tower [far, near]).relations.Grounded (tower [far, near]).registry :=
    Memory.grounded (by decide +kernel) (pinned _)
  have known : ∀ paths, (tower paths).registry.isRegistered gate.model = true := by
    have applicable : (tower []).registry.applicable.contains gate.model = true := by decide +kernel
    intro paths
    rw [Registry.isRegistered, Bool.or_eq_true]
    exact .inl applicable
  have dropped : (tower [far, near]).restrict view id [gate] ann = .ok [] :=
    ok_of_toOption (by decide +kernel)
  -- A witness that fits does so in either order of the paths, and then nothing would be dropped.
  have beyond : ¬ WithinDepth (tower [near, far]).registry (tower [near, far]).relations
      ((tower [near, far]).store.contents.Granted ann view) gate := by
    intro within
    obtain ⟨grants, read, granted⟩ := (tower [far, near]).store.contents.site_grantedObjects ann view
    have decided := restrict_ok (tower [far, near]).store.contents farFirst (by decide +kernel) read id
      [gate] (by simp [known])
    have reorders : (tower [near, far]).registry.Reorders (tower [far, near]).registry :=
      Registry.reorders_insert (List.Perm.swap far near []) rfl
    have reordered : WithinDepth (tower [far, near]).registry (tower [far, near]).relations
        ((tower [far, near]).store.contents.Granted ann view) gate := within.reordered reorders
    have kept := (keeps_iff _ farFirst granted (known _)).mpr ⟨by decide +kernel, .inl reordered⟩
    rw [dropped] at decided
    simp [kept] at decided
  refine ⟨ok_of_toOption (by decide +kernel), dropped, beyond, ?_⟩
  obtain ⟨grants, read, granted⟩ := (tower [near, far]).store.contents.site_grantedObjects ann view
  obtain ⟨afresh, built, holds_iff⟩ := ofObjectWith_false_holds_iff nearFirst (known [near, far])
  refine ⟨afresh, grants, built, read, ?_⟩
  have same : (· ∈ grants) = (tower [near, far]).store.contents.Granted ann view :=
    funext fun object => propext (granted object)
  rw [Bool.eq_false_iff, ne_eq, holds_iff, same]
  exact beyond

end Site

end Entitlement
