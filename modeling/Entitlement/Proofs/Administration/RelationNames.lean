import Entitlement.Proofs.Administration.Integrity
import Entitlement.Proofs.Naming.Written

/-!
# Under which name a relation is written

Setting or clearing a relation takes any text that reads as a path of one name, white space around it
aside, and writes the relation under the text as it stands. Paths are followed by the names that they
read as, so what is written is followed only where the text is that name
(`Site.leadTo_followed_iff`).
-/

namespace Entitlement

open Text (trim)

/-! ### Following relations -/

namespace Relations

variable {relations relations' : Relations}

theorem follow_single (object : Object) (hop : String) :
    relations.follow object [hop] = relations object hop := by
  unfold follow
  cases led : relations object hop with
  | error failure => rfl
  | ok next => cases next <;> rfl

/-- Where relations lead alike by the names of a way, the way leads alike. -/
theorem follow_congr {hops : List String}
    (same : ∀ hop ∈ hops, ∀ object, relations object hop = relations' object hop) (object : Object) :
    relations.follow object hops = relations'.follow object hops := by
  induction hops generalizing object with
  | nil => rfl
  | cons hop rest ih =>
    obtain ⟨here, others⟩ := List.forall_mem_cons.mp same
    rw [follow, follow, here object]
    cases relations' object hop with
    | error failure => rfl
    | ok next =>
      cases next with
      | none => rfl
      | some parent => exact ih others parent

end Relations

/-! ### What a write does -/

namespace Site

variable {site after : Site Memory} {actor : User} {child object : Object} {relation hop : String}
  {parent? : Option Object}

/-- Lets a relation of the child lead to a parent, or nowhere for want of one. -/
def leadTo (actor : User) (child : Object) (relation : String) :
    Option Object → Attempt (Site Memory) Unit
  | some parent => setRelation actor child relation parent
  | none => clearRelation actor child relation

theorem requireRelationEdit_single {objects : List Object}
    (allowed : site.requireRelationEdit actor objects relation = .ok ()) :
    ∃ path, Path.parse relation = .ok path ∧ path.hops = [trim relation] := by
  obtain ⟨_, single, _⟩ := bind_ok allowed
  obtain ⟨path, read, one⟩ := bind_ok single
  refine ⟨path, refused_ok read, ?_⟩
  split at one
  · cases one
  · rename_i length
    exact Path.hops_of_single (refused_ok read) (Classical.not_not.mp length)

/-- A write that succeeds has been of a text with a single name, and touches nothing but the relation of
the child under this very text. -/
theorem leadTo_ok (ran : leadTo actor child relation parent? site = (.ok (), after)) :
    (∃ path, Path.parse relation = .ok path ∧ path.hops = [trim relation]) ∧
      after.pinned = site.pinned ∧ ∀ key, after.store.relations.get? key =
        if key = ⟨child, relation⟩ then parent? else site.store.relations.get? key := by
  cases parent? with
  | some parent =>
    obtain ⟨_, _, looked, ran⟩ := Attempt.bind_eq_ok.mp ran
    obtain ⟨allowed, rfl⟩ := Attempt.look_ok looked
    refine ⟨requireRelationEdit_single allowed, ?_⟩
    rcases put_run fun store => Store.setRelation store child relation parent with
      ⟨failure, refused⟩ | ⟨m, served, done⟩
    · cases refused.symm.trans ran
    · cases done.symm.trans ran
      rw [Memory.setRelation_ok served]
      exact ⟨rfl, fun key => SortedMap.get?_insert _ _ _ _⟩
  | none =>
    obtain ⟨_, _, looked, ran⟩ := Attempt.bind_eq_ok.mp ran
    obtain ⟨allowed, rfl⟩ := Attempt.look_ok looked
    cases ran
    exact ⟨requireRelationEdit_single allowed, rfl, fun key => SortedMap.get?_erase _ _ _⟩

theorem relations_leadTo (ran : leadTo actor child relation parent? site = (.ok (), after))
    (unpinned : site.pinned.get? ⟨child, relation⟩ = none) :
    after.relations child relation = .ok parent? := by
  obtain ⟨_, pinned, stored⟩ := leadTo_ok ran
  unfold relations
  rw [pinned, unpinned]
  exact congrArg Except.ok ((stored _).trans (if_pos rfl))

theorem relations_leadTo_of_ne (ran : leadTo actor child relation parent? site = (.ok (), after))
    (other : hop ≠ relation) : after.relations object hop = site.relations object hop := by
  obtain ⟨_, pinned, stored⟩ := leadTo_ok ran
  have kept : after.store.relations.get? ⟨object, hop⟩ = site.store.relations.get? ⟨object, hop⟩ := by
    rw [stored, if_neg]
    exact fun same => other (congrArg RelationKey.relation same)
  unfold relations
  simp only [Store.related, pinned, kept]

/-- After a relation has been set or cleared, the path that its text reads as leads where it was told
to, or nowhere, exactly if the text has no white space around it or the path led there before. Under
another text the write changes nothing of where any path leads from any object. -/
theorem leadTo_followed_iff (site : Site Memory) (actor : User) (child : Object) (relation : String)
    (unpinned : site.pinned.get? ⟨child, trim relation⟩ = none) (parent? : Option Object)
    (after : Site Memory) (ran : leadTo actor child relation parent? site = (.ok (), after)) :
    ∃ path, Path.parse relation = .ok path ∧
      (after.relations.follow child path.hops = .ok parent? ↔
        trim relation = relation ∨ site.relations.follow child path.hops = .ok parent?) ∧
      (trim relation ≠ relation → ∀ (object : Object) (path : Path),
        after.relations.follow object path.hops = site.relations.follow object path.hops) := by
  obtain ⟨⟨path, read, hops⟩, _⟩ := leadTo_ok ran
  have unfollowed : trim relation ≠ relation → ∀ (object : Object) (path : Path),
      after.relations.follow object path.hops = site.relations.follow object path.hops := by
    intro spaced object path
    refine Relations.follow_congr (fun hop mem object => relations_leadTo_of_ne ran ?_) object
    rintro rfl
    exact spaced (Text.trim_of_isWord (path.words hop mem))
  refine ⟨path, read, ?_, unfollowed⟩
  by_cases plain : trim relation = relation
  · rw [plain] at unpinned
    have leads : after.relations.follow child path.hops = .ok parent? := by
      rw [hops, plain, Relations.follow_single]
      exact relations_leadTo ran unpinned
    exact iff_of_true leads (.inl plain)
  · rw [unfollowed plain child path]
    exact ⟨.inr, fun led => led.resolve_left plain⟩

open Sample in
theorem leadTo_followed_in_library :
    ∃ after, leadTo root ⟨document, "e"⟩ "folder" (some ⟨folder, "f"⟩) library = (.ok (), after) ∧
      ∃ path, Path.parse "folder" = .ok path ∧
        after.relations.follow ⟨document, "e"⟩ path.hops = .ok (some ⟨folder, "f"⟩) := by
  let ran := leadTo root ⟨document, "e"⟩ "folder" (some ⟨folder, "f"⟩) library
  have done : ran = (.ok (), ran.2) := Prod.ext (by decide +kernel) rfl
  have unpinned : library.pinned.get? ⟨⟨document, "e"⟩, trim "folder"⟩ = none := rfl
  have plain : trim "folder" = "folder" := by decide +kernel
  obtain ⟨path, read, leads, _⟩ :=
    leadTo_followed_iff library root ⟨document, "e"⟩ "folder" unpinned _ ran.2 done
  exact ⟨ran.2, done, path, read, leads.mpr (.inl plain)⟩

open Sample in
/-- With a blank at its end a relation is set that leads nowhere, and cleared while it goes on leading. -/
theorem spaced_relation_unfollowed :
    let setting := setRelation root ⟨document, "e"⟩ "folder " ⟨folder, "f"⟩ library
    let clearing := clearRelation root ⟨document, "d"⟩ "folder " library
    ∃ path, Path.parse "folder " = .ok path ∧
      (setting.1 = .ok () ∧
        setting.2.relations.follow ⟨document, "e"⟩ path.hops ≠ .ok (some ⟨folder, "f"⟩)) ∧
      (clearing.1 = .ok () ∧
        clearing.2.relations.follow ⟨document, "d"⟩ path.hops ≠ .ok none) := by
  refine ⟨⟨["folder"], by decide, by decide⟩, ?_, ?_, ?_⟩ <;> decide +kernel

end Site

end Entitlement
