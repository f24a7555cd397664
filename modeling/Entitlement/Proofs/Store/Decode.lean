import Entitlement.Proofs.Naming.Written
import Entitlement.Proofs.Store.Tables
import Entitlement.View

/-!
# Stored texts read back

An object with a key that is not blank and a set of permissions come back from the texts that they are
stored as, and so does whatever has a written form (`stored_forms_read_back`).
-/

namespace Entitlement

open Text

theorem Model.hasNul_toText (m : Model) : Database.hasNul m.toText = false := by
  have word (part : String) (lower : IsLowerWord part) : '\x00' ∉ part.toList := by
    intro mem
    exact absurd (List.all_eq_true.mp lower.1.2 '\x00' mem) (by decide)
  simp only [Database.hasNul, Model.toText, String.toList_append, List.contains_eq_mem,
    decide_eq_false_iff_not, List.mem_append, not_or]
  exact ⟨⟨word m.app m.app_word, by decide⟩, word m.name m.name_word⟩

/-! ### Objects and permissions -/

/-- What an object is stored as. -/
def Object.texts (object : Object) : String × String := (object.model.toText, object.key)

theorem Object.texts_injective : Function.Injective Object.texts := by
  rintro ⟨model, key⟩ ⟨model', key'⟩ same
  have models : model = model' := Model.toText_injective (congrArg Prod.fst same)
  have keys : key = key' := congrArg Prod.snd same
  rw [models, keys]

theorem decodeObject_toText {object : Object} (filled : allBlank object.key = false) :
    decodeObject object.model.toText object.key = .ok object := by
  unfold decodeObject
  rw [Model.parse_toText]
  dsimp only
  rw [Object.of?, filled]
  rfl

theorem decodePermission_toText (p : Permission) : decodePermission p.toText = .ok p := by
  rw [decodePermission, Permission.parse_toText]
  rfl

theorem exists_toText_insert {permissions : SortedSet Permission} {permission : Permission}
    {text : String} :
    (∃ p ∈ permissions.insert permission, p.toText = text) ↔
      (∃ p ∈ permissions, p.toText = text) ∨ text = permission.toText := by
  simp only [SortedSet.mem_insert, or_and_right, exists_or, exists_eq_left]
  rw [or_comm, eq_comm]

theorem exists_toText_erase {permissions : SortedSet Permission} {permission : Permission}
    {text : String} :
    (∃ p ∈ permissions.erase permission, p.toText = text) ↔
      (∃ p ∈ permissions, p.toText = text) ∧ text ≠ permission.toText := by
  constructor
  · rintro ⟨p, mem, rfl⟩
    obtain ⟨apart, mem⟩ := SortedSet.mem_erase.mp mem
    exact ⟨⟨p, mem, rfl⟩, fun same => apart (Permission.toText_injective same)⟩
  · rintro ⟨⟨p, mem, rfl⟩, other⟩
    have apart : p ≠ permission := fun same => other (congrArg Permission.toText same)
    exact ⟨p, SortedSet.mem_erase.mpr ⟨apart, mem⟩, rfl⟩

/-- Texts of the members of a set are read as the set, in whatever order and however often. -/
theorem decodePermissions_eq {texts : List String} {permissions : SortedSet Permission}
    (written : ∀ text, text ∈ texts ↔ ∃ p ∈ permissions, p.toText = text) :
    decodePermissions texts = .ok permissions := by
  have each : ∀ text ∈ texts, ∃ p, decodePermission text = .ok p := by
    intro text mem
    obtain ⟨p, _, rfl⟩ := (written text).mp mem
    exact ⟨p, decodePermission_toText p⟩
  obtain ⟨read, ran, results⟩ := mapM_total each
  have same : SortedSet.ofList read = permissions := by
    refine SortedSet.ext fun p => ?_
    rw [SortedSet.mem_ofList, results]
    constructor
    · rintro ⟨text, mem, back⟩
      obtain ⟨q, stored, rfl⟩ := (written text).mp mem
      rw [decodePermission_toText] at back
      cases back
      exact stored
    · intro stored
      exact ⟨p.toText, (written p.toText).mpr ⟨p, stored, rfl⟩, decodePermission_toText p⟩
  rw [decodePermissions, ran]
  exact congrArg Except.ok same

/-- A set of permissions comes back from what its members are written as, listed in any order and any
number of times. -/
theorem decodePermissions_map_toText {listed : List Permission} {permissions : SortedSet Permission}
    (members : ∀ p, p ∈ listed ↔ p ∈ permissions) :
    decodePermissions (listed.map Permission.toText) = .ok permissions := by
  apply decodePermissions_eq
  intro text
  simp only [List.mem_map, members]

theorem Object.of?_ok {model : Model} {key : String} {object : Object}
    (made : Object.of? model key = .ok object) : allBlank object.key = false := by
  obtain ⟨filled, rfl⟩ := ite_allBlank_ok_iff.mp made
  exact filled

theorem Object.parse_texts {object : Object} (filled : allBlank object.key = false) :
    Object.parse object.model.toText object.key = .ok object := by
  unfold Object.parse
  rw [Model.parse_toText]
  change Object.of? object.model object.key = _
  rw [Object.of?, filled]
  rfl

/-- What is written in the store or sent to clients is read as what it was written from, and different
values are written differently. -/
theorem stored_forms_read_back :
    (∀ permission : Permission, Permission.parse permission.toText = .ok permission) ∧
    (∀ model : Model, Model.parse model.toText = .ok model) ∧
    (∀ path : Path, Path.parse path.toText = .ok path) ∧
    (∀ model key object, Object.of? model key = .ok object →
      decodeObject object.model.toText object.key = .ok object ∧
      ∃ contentType objectId, object.view =
        .object [("content_type", .text contentType), ("object_id", .text objectId)] ∧
        Object.parse contentType objectId = .ok object) ∧
    (∀ (permissions : SortedSet Permission) (listed : List Permission),
      (∀ permission, permission ∈ listed ↔ permission ∈ permissions) →
      decodePermissions (listed.map Permission.toText) = .ok permissions) ∧
    Function.Injective Permission.toText ∧ Function.Injective Model.toText ∧
    Function.Injective Path.toText ∧ Function.Injective Object.texts := by
  refine ⟨Permission.parse_toText, Model.parse_toText, Path.parse_toText, ?_,
    fun _ _ members => decodePermissions_map_toText members, Permission.toText_injective,
    Model.toText_injective, Path.toText_injective, Object.texts_injective⟩
  intro model key object made
  have filled := Object.of?_ok made
  exact ⟨decodeObject_toText filled, object.model.toText, object.key, rfl, Object.parse_texts filled⟩

/-- The key keeps its blanks and its dot, and the repeated permission counts once. -/
theorem stored_forms_read_back_on_role :
    Object.of? roleModel " 7.a " = .ok ⟨roleModel, " 7.a "⟩ ∧
      decodeObject "permissions.role" " 7.a " = .ok ⟨roleModel, " 7.a "⟩ ∧
      decodePermissions ["permissions.role_view", "acls.acl_edit", "permissions.role_view"] =
        .ok (.ofList [editEntries, viewRoles]) := by
  have made : Object.of? roleModel " 7.a " = .ok ⟨roleModel, " 7.a "⟩ := by rfl
  obtain ⟨-, -, -, objects, sets, -⟩ := stored_forms_read_back
  refine ⟨made, (objects _ _ _ made).1, ?_⟩
  refine sets (.ofList [editEntries, viewRoles]) [viewRoles, editEntries, viewRoles] fun permission => ?_
  rw [SortedSet.mem_ofList]
  grind

/-! ### What is sent -/

section Sending

variable {db : Database} {texts : List String}

/-- Where every table is in place, only the texts decide. -/
theorem Database.send_in_place (away : db.away = []) (task : StorageTask) (tables : List Table) :
    db.send task tables texts =
      if texts.any hasNul then .error (.storage task .nulText) else .ok () := by
  have present : tables.find? (db.away.contains ·) = none := by simp [away]
  rw [send, present]

theorem Database.send_ok (away : db.away = []) (plain : ∀ text ∈ texts, hasNul text = false)
    (task : StorageTask) (tables : List Table) : db.send task tables texts = .ok () := by
  have none : texts.any hasNul = false := by
    rw [List.any_eq_false]
    intro text mem
    rw [plain text mem]
    exact Bool.false_ne_true
  rw [send_in_place away, none]
  rfl

theorem Database.send_nul (away : db.away = []) {text : String} (mem : text ∈ texts)
    (nul : hasNul text = true) (task : StorageTask) (tables : List Table) :
    db.send task tables texts = .error (.storage task .nulText) := by
  rw [send_in_place away, if_pos (List.any_eq_true.mpr ⟨text, mem, nul⟩)]

theorem Database.send_object (away : db.away = []) {object : Object}
    (plain : hasNul object.key = false) (others : ∀ text ∈ texts, hasNul text = false)
    (task : StorageTask) (tables : List Table) :
    db.send task tables (object.model.toText :: object.key :: texts) = .ok () :=
  send_ok away (List.forall_mem_cons.mpr ⟨object.model.hasNul_toText,
    List.forall_mem_cons.mpr ⟨plain, others⟩⟩) task tables

end Sending

end Entitlement
