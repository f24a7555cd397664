import Entitlement.Proofs.Naming.Grammar
import Entitlement.Proofs.Store.Decode
import Entitlement.Record

/-!
# Records read back

What is read from a record comes back from the record that it is written as. Permissions, models and
paths are read through the checks that make them; labels, keys and names of spaces are not, so a record
may give what nothing makes. `read_as_made_iff` tells from which JSON values that happens.
-/

namespace Entitlement.Record

open Text

variable {α β γ δ : Type} {n₁ n₂ n₃ n₄ : String} {d₁ : Decoder α} {d₂ : Decoder β} {d₃ : Decoder γ}
  {d₄ : Decoder δ} {json : Json}

/-! ### The fields of a record -/

/-- The values that a record has for the fields of these names: of an object the first member of each
name (with a second one the record is not read), of an array the items, which have to be as many. -/
def fieldsOf (names : List String) : Json → Option (List Json)
  | .object members => names.mapM fun name => (members.find? (·.1 == name)).map (·.2)
  | .array items => if items.length = names.length then some items else none
  | _ => none

theorem fieldValues_ok {fields : List (String × Decoder Unit)} {values : List Json}
    (read : fieldValues fields json = .ok values) : fieldsOf (fields.map (·.1)) json = some values := by
  unfold fieldValues at read
  split at read
  · rename_i members
    -- The checks that come first decide which fault is told, not which value is found.
    obtain ⟨_, -, found⟩ := bind_ok read
    clear read
    unfold fieldsOf
    dsimp only
    induction fields generalizing values with
    | nil =>
      cases found
      rfl
    | cons field rest ih =>
      obtain ⟨value, others, rfl, first, found⟩ := mapM_cons_inv found
      rw [List.map_cons, List.mapM_cons, ih found]
      split at first
      · rename_i name value' found
        cases first
        rw [found]
        rfl
      · cases first
  · rename_i items
    obtain ⟨_, -, read⟩ := bind_ok read
    split at read
    · rename_i length
      cases read
      rw [fieldsOf, if_pos (length.trans (List.length_map _).symm)]
    · cases read
  · cases read

theorem record₂_ok {a : α} {b : β} (read : record₂ n₁ d₁ n₂ d₂ json = .ok (a, b)) :
    ∃ first second, fieldsOf [n₁, n₂] json = some [first, second] ∧ d₁ first = .ok a ∧
      d₂ second = .ok b := by
  obtain ⟨values, fields, read⟩ := bind_ok read
  split at read
  · rename_i first second
    obtain ⟨_, one, read⟩ := bind_ok read
    obtain ⟨_, two, read⟩ := bind_ok read
    cases read
    exact ⟨first, second, fieldValues_ok fields, one, two⟩
  · cases read

theorem record₄_ok {a : α} {b : β} {c : γ} {d : δ}
    (read : record₄ n₁ d₁ n₂ d₂ n₃ d₃ n₄ d₄ json = .ok (a, b, c, d)) :
    ∃ first second third fourth, fieldsOf [n₁, n₂, n₃, n₄] json = some [first, second, third, fourth] ∧
      d₁ first = .ok a ∧ d₂ second = .ok b ∧ d₃ third = .ok c ∧ d₄ fourth = .ok d := by
  obtain ⟨values, fields, read⟩ := bind_ok read
  split at read
  · rename_i first second third fourth
    obtain ⟨_, one, read⟩ := bind_ok read
    obtain ⟨_, two, read⟩ := bind_ok read
    obtain ⟨_, three, read⟩ := bind_ok read
    obtain ⟨_, four, read⟩ := bind_ok read
    cases read
    exact ⟨first, second, third, fourth, fieldValues_ok fields, one, two, three, four⟩
  · cases read

/-! ### Records that were written -/

/-- A field with the value that is written for it. -/
abbrev Row : Type := String × Decoder Unit × Json

theorem find?_row {rows : List Row} (apart : (rows.map (·.1)).Nodup) {row : Row} (mem : row ∈ rows) :
    rows.find? (·.1 == row.1) = some row := by
  induction rows with
  | nil => cases mem
  | cons first rest ih =>
    rw [List.map_cons, List.nodup_cons] at apart
    rcases List.mem_cons.mp mem with rfl | mem
    · exact List.find?_cons_of_pos (beq_self_eq_true _)
    · have other : first.1 ≠ row.1 := fun same => apart.1 (same ▸ List.mem_map_of_mem mem)
      rw [List.find?_cons_of_neg (by simpa using other)]
      exact ih apart.2 mem

theorem find?_part {rows : List Row} (apart : (rows.map (·.1)).Nodup) {row : Row} (mem : row ∈ rows)
    (part : Row → α) : (rows.map fun row => (row.1, part row)).find? (·.1 == row.1) =
      some (row.1, part row) := by
  rw [List.find?_map]
  exact congrArg (Option.map _) (find?_row apart mem)

theorem checkMembers_ok {fields : List (String × Decoder Unit)} {found : List String}
    {members : List (String × Json)} (apart : (members.map (·.1)).Nodup)
    (unfound : ∀ member ∈ members, member.1 ∉ found)
    (fit : ∀ member ∈ members, ∃ field, fields.find? (·.1 == member.1) = some field ∧
      field.2 member.2 = .ok ()) : checkMembers fields found members = .ok () := by
  induction members generalizing found with
  | nil => rfl
  | cons member rest ih =>
    obtain ⟨⟨field, named, check⟩, others⟩ := List.forall_mem_cons.mp fit
    obtain ⟨new, later⟩ := List.forall_mem_cons.mp unfound
    rw [List.map_cons, List.nodup_cons] at apart
    rw [checkMembers, named]
    dsimp only
    rw [if_neg new, check]
    refine ih apart.2 (fun other mem => ?_) others
    have differs : other.1 ≠ member.1 := fun same => apart.1 (same ▸ List.mem_map_of_mem mem)
    exact List.not_mem_cons_of_ne_of_not_mem differs (later other mem)

theorem fieldValues_rows (rows : List Row) (apart : (rows.map (·.1)).Nodup)
    (fit : ∀ row ∈ rows, row.2.1 row.2.2 = .ok ()) :
    fieldValues (rows.map fun row => (row.1, row.2.1)) (.object (rows.map fun row => (row.1, row.2.2))) =
      .ok (rows.map (·.2.2)) := by
  have checked : checkMembers (rows.map fun row => (row.1, row.2.1)) []
      (rows.map fun row => (row.1, row.2.2)) = .ok () := by
    have names : (rows.map fun row => (row.1, row.2.2)).map (·.1) = rows.map (·.1) := by
      rw [List.map_map]
      rfl
    refine checkMembers_ok (names ▸ apart) (fun _ _ => List.not_mem_nil) ?_
    simp only [List.mem_map, forall_exists_index, and_imp, forall_apply_eq_imp_iff₂]
    intro row mem
    exact ⟨(row.1, row.2.1), find?_part apart mem (·.2.1), fit row mem⟩
  unfold fieldValues
  dsimp only
  rw [checked]
  refine mapM_map_ok fun row mem => ?_
  dsimp only
  rw [find?_part apart mem (·.2.2)]

theorem record₂_written {first second : Json} {a : α} {b : β} (apart : [n₁, n₂].Nodup)
    (one : d₁ first = .ok a) (two : d₂ second = .ok b) :
    record₂ n₁ d₁ n₂ d₂ (.object [(n₁, first), (n₂, second)]) = .ok (a, b) := by
  have values : fieldValues [field n₁ d₁, field n₂ d₂] (.object [(n₁, first), (n₂, second)]) =
      .ok [first, second] := by
    refine fieldValues_rows [(n₁, (field n₁ d₁).2, first), (n₂, (field n₂ d₂).2, second)] apart ?_
    simp [field, one, two, Except.map]
  unfold record₂
  rw [values]
  dsimp only [bind, Except.bind]
  rw [one, two]
  rfl

theorem record₄_written {first second third fourth : Json} {a : α} {b : β} {c : γ} {d : δ}
    (apart : [n₁, n₂, n₃, n₄].Nodup) (one : d₁ first = .ok a) (two : d₂ second = .ok b)
    (three : d₃ third = .ok c) (four : d₄ fourth = .ok d) :
    record₄ n₁ d₁ n₂ d₂ n₃ d₃ n₄ d₄
      (.object [(n₁, first), (n₂, second), (n₃, third), (n₄, fourth)]) = .ok (a, b, c, d) := by
  have values : fieldValues [field n₁ d₁, field n₂ d₂, field n₃ d₃, field n₄ d₄]
      (.object [(n₁, first), (n₂, second), (n₃, third), (n₄, fourth)]) =
      .ok [first, second, third, fourth] := by
    refine fieldValues_rows [(n₁, (field n₁ d₁).2, first), (n₂, (field n₂ d₂).2, second),
      (n₃, (field n₃ d₃).2, third), (n₄, (field n₄ d₄).2, fourth)] apart ?_
    simp [field, one, two, three, four, Except.map]
  unfold record₄
  rw [values]
  dsimp only [bind, Except.bind]
  rw [one, two, three, four]
  rfl

theorem set_ofSet [Ord α] [Std.TransOrd α] [Std.LawfulEqOrd α] [DecidableEq α] {member : Decoder α}
    {render : α → String} {members : SortedSet α}
    (back : ∀ a ∈ members, member (.text (render a)) = .ok a) :
    set member (ofSet render members) = .ok members := by
  have each : ((members.toList.map render).map Json.text).mapM member = .ok members.toList := by
    rw [List.map_map]
    refine (mapM_map_ok fun a mem => back a (SortedSet.mem_toList_iff.mp mem)).trans ?_
    rw [List.map_id']
  change (((members.toList.map render).map Json.text).mapM member).map SortedSet.ofList = _
  rw [each]
  exact congrArg Except.ok members.ofList_toList

/-! ### What is made -/

/-- A text that is not blank, kept as it stands. -/
def nonBlank (s : String) : Except Malformed String := if allBlank s then .error .blank else .ok s

theorem nonBlank_made_iff {s : String} : (∃ t, nonBlank t = .ok s) ↔ allBlank s = false := by
  simp [nonBlank, ite_allBlank_ok_iff]

theorem permission_made (p : Permission) : ∃ space name, Permission.of? space name = .ok p :=
  ⟨p.space, p.name, Permission.of?_ok_iff.mpr
    ⟨trim_of_isSegment p.space_segment, trim_of_isSegment p.name_segment⟩⟩

theorem model_made (m : Model) : ∃ app name, Model.of? app name = .ok m := by
  refine ⟨m.app, m.name, Model.of?_ok_iff.mpr ?_⟩
  rw [trim_of_isWord m.app_word.1, trim_of_isWord m.name_word.1]
  exact ⟨⟨m.app_word.1, lower_eq_self m.app_word⟩, m.name_word.1, lower_eq_self m.name_word⟩

theorem object_made_iff {object : Object} :
    (∃ model key, Object.of? model key = .ok object) ↔ allBlank object.key = false := by
  constructor
  · rintro ⟨model, key, made⟩
    exact Object.of?_ok made
  · intro filled
    exact ⟨object.model, object.key, ite_allBlank_ok_iff.mpr ⟨filled, rfl⟩⟩

theorem space_made_iff {space : Space} : (∃ name label, Space.of? name label = .ok space) ↔
    IsSegment space.name ∧ allBlank space.label = false := by
  simp only [Space.of?_ok_iff]
  constructor
  · rintro ⟨name, label, -, segment, rfl, filled⟩
    exact ⟨segment, filled⟩
  · rintro ⟨segment, filled⟩
    exact ⟨space.name, space.label, trim_of_isSegment segment, segment, rfl, filled⟩

theorem labelledPermission_made_iff {p : LabelledPermission} :
    (∃ space name label, LabelledPermission.of? space name label = .ok p) ↔
      allBlank p.label = false := by
  simp only [LabelledPermission.of?_ok_iff]
  constructor
  · rintro ⟨space, name, label, -, -, rfl, filled⟩
    exact filled
  · intro filled
    exact ⟨⟨p.id.space, p.label⟩, p.id.name, p.label, trim_of_isSegment p.id.space_segment,
      trim_of_isSegment p.id.name_segment, rfl, filled⟩

theorem role_made_iff {role : Role} :
    (∃ id label permissions groups, Role.of? id label permissions groups = .ok role) ↔
      allBlank role.label = false := by
  constructor
  · rintro ⟨id, label, permissions, groups, made⟩
    obtain ⟨filled, rfl⟩ := ite_allBlank_ok_iff.mp made
    exact filled
  · intro filled
    exact ⟨role.id, role.label, role.permissions, role.groups, ite_allBlank_ok_iff.mpr ⟨filled, rfl⟩⟩

/-! ### What is read -/

/-- A text that is not blank. -/
def NotBlank (json : Json) : Prop := ∃ s, json = .text s ∧ allBlank s = false

/-- The record of an object with a key that is not blank. -/
def KeyNotBlank (json : Json) : Prop :=
  ∃ model key, fieldsOf ["model", "object_id"] json = some [model, key] ∧ NotBlank key

theorem text_ok {s : String} (read : text json = .ok s) : json = .text s := by
  unfold text at read
  split at read
  · cases read
    rfl
  · cases read

theorem notBlank_iff {s : String} (read : text json = .ok s) : NotBlank json ↔ allBlank s = false := by
  obtain rfl := text_ok read
  simp [NotBlank]

theorem parsed_text {parse : String → Except Malformed α} {s : String} {a : α} (read : parse s = .ok a) :
    parsed parse (.text s) = .ok a := by
  change (parse s).mapError Fault.refused = _
  rw [read]
  rfl

theorem permission_text (p : Permission) : permission (.text p.toText) = .ok p :=
  parsed_text p.parse_toText

theorem uuid_text (id : Uuid) : uuid (.text id.toText) = .ok id := by
  have read : text (.text id.toText) = .ok id.toText := rfl
  unfold uuid
  rw [read]
  dsimp only [bind, Except.bind]
  rw [Uuid.ofText?_toText]
  rfl

theorem object_ok {o : Object} (read : object json = .ok o) : ∃ first second,
    fieldsOf ["model", "object_id"] json = some [first, second] ∧ text second = .ok o.key := by
  obtain ⟨⟨model, key⟩, values, made⟩ := bind_ok read
  cases made
  obtain ⟨first, second, fields, -, key⟩ := record₂_ok values
  exact ⟨first, second, fields, key⟩

theorem object_ofObject (o : Object) : object (ofObject o) = .ok o := by
  have values : record₂ "model" model "object_id" text (ofObject o) = .ok (o.model, o.key) :=
    record₂_written (by decide) (parsed_text o.model.parse_toText) rfl
  unfold object
  rw [values]
  rfl

theorem keyNotBlank_iff {o : Object} (read : object json = .ok o) :
    KeyNotBlank json ↔ allBlank o.key = false := by
  obtain ⟨first, second, fields, key⟩ := object_ok read
  rw [← notBlank_iff key]
  simp [KeyNotBlank, fields, and_assoc]

theorem space_ok {space : Space} (read : Record.space json = .ok space) :
    fieldsOf ["name", "label"] json = some [.text space.name, .text space.label] := by
  obtain ⟨⟨name, label⟩, values, made⟩ := bind_ok read
  cases made
  obtain ⟨first, second, fields, name, label⟩ := record₂_ok values
  rw [fields, text_ok name, text_ok label]

theorem space_ofSpace (space : Space) : Record.space (ofSpace space) = .ok space := by
  have values : record₂ "name" text "label" text (ofSpace space) = .ok (space.name, space.label) :=
    record₂_written (by decide) rfl rfl
  unfold Record.space
  rw [values]
  rfl

theorem labelledPermission_ok {p : LabelledPermission} (read : labelledPermission json = .ok p) :
    ∃ first, fieldsOf ["id", "label"] json = some [first, .text p.label] := by
  obtain ⟨⟨id, label⟩, values, made⟩ := bind_ok read
  cases made
  obtain ⟨first, second, fields, -, label⟩ := record₂_ok values
  rw [text_ok label] at fields
  exact ⟨first, fields⟩

theorem labelledPermission_ofLabelledPermission (p : LabelledPermission) :
    labelledPermission (ofLabelledPermission p) = .ok p := by
  have values : record₂ "id" permission "label" text (ofLabelledPermission p) = .ok (p.id, p.label) :=
    record₂_written (by decide) (permission_text p.id) rfl
  unfold labelledPermission
  rw [values]
  rfl

theorem role_ok {r : Role} (read : role json = .ok r) : ∃ first third fourth,
    fieldsOf ["role_id", "label", "permissions", "groups"] json =
      some [first, .text r.label, third, fourth] := by
  obtain ⟨⟨id, label, permissions, groups⟩, values, made⟩ := bind_ok read
  cases made
  obtain ⟨first, second, third, fourth, fields, -, label, -⟩ := record₄_ok values
  rw [text_ok label] at fields
  exact ⟨first, third, fourth, fields⟩

theorem role_ofRole (r : Role) : role (ofRole r) = .ok r := by
  have values : record₄ "role_id" uuid "label" text "permissions" (set permission) "groups" (set text)
      (ofRole r) = .ok (r.id, r.label, r.permissions, r.groups) :=
    record₄_written (by decide) (uuid_text r.id) rfl (set_ofSet fun p _ => permission_text p)
      (set_ofSet fun _ _ => rfl)
  unfold role
  rw [values]
  rfl

theorem entry_ok {e : Entry} (read : entry json = .ok e) : (∃ id, e.id = .given id) ∧
    ∃ first second third fourth, fieldsOf ["acl_id", "target", "role_id", "permissions"] json =
      some [first, second, third, fourth] ∧ object second = .ok e.target := by
  obtain ⟨⟨id, target, role, permissions⟩, values, made⟩ := bind_ok read
  cases made
  obtain ⟨first, second, third, fourth, fields, -, target, -⟩ := record₄_ok values
  exact ⟨⟨id, rfl⟩, first, second, third, fourth, fields, target⟩

/-- An entry that a store numbered has no identifier to be read. -/
theorem entry_ofEntry {e : Entry} {id : Uuid} (given : e.id = .given id) :
    entry (ofEntry e) = .ok e := by
  obtain ⟨_, target, role, permissions⟩ := e
  cases given
  have values : record₄ "acl_id" uuid "target" object "role_id" uuid "permissions" (set permission)
      (ofEntry ⟨.given id, target, role, permissions⟩) = .ok (id, target, role, permissions) :=
    record₄_written (by decide) (uuid_text id) (object_ofObject target) (uuid_text role)
      (set_ofSet fun p _ => permission_text p)
  unfold entry
  rw [values]
  rfl

/-- What is read from the JSON value comes back from what it is written as, and something makes it
exactly if the value is fit. -/
def ReadAsMade (json : Json) (read : Decoder α) (write : α → Json) (Made : α → Prop) (fit : Prop) :
    Prop :=
  ∀ a, read json = .ok a → read (write a) = .ok a ∧ (Made a ↔ fit)

/-- The nine kinds of values come back. Permissions, models and paths are always as they are made; a
text, and a record with a label or a key in it, exactly if those are not blank where they stand in the
JSON value, and a space if its name is a segment besides. -/
theorem read_as_made_iff (json : Json) :
    ReadAsMade json permission (.text ·.toText)
      (fun p => ∃ space name, Permission.of? space name = .ok p) True ∧
    ReadAsMade json model (.text ·.toText) (fun m => ∃ app name, Model.of? app name = .ok m) True ∧
    ReadAsMade json path (.text ·.toText) (fun p => ∃ s, Path.parse s = .ok p) True ∧
    ReadAsMade json text .text (fun s => ∃ t, nonBlank t = .ok s) (NotBlank json) ∧
    ReadAsMade json object ofObject (fun o => ∃ model key, Object.of? model key = .ok o)
      (KeyNotBlank json) ∧
    ReadAsMade json Record.space ofSpace (fun space => ∃ name label, Space.of? name label = .ok space)
      (∃ name label, fieldsOf ["name", "label"] json = some [.text name, label] ∧ IsSegment name ∧
        NotBlank label) ∧
    ReadAsMade json labelledPermission ofLabelledPermission
      (fun p => ∃ space name label, LabelledPermission.of? space name label = .ok p)
      (∃ id label, fieldsOf ["id", "label"] json = some [id, label] ∧ NotBlank label) ∧
    ReadAsMade json role ofRole
      (fun r => ∃ id label permissions groups, Role.of? id label permissions groups = .ok r)
      (∃ id label permissions groups, fieldsOf ["role_id", "label", "permissions", "groups"] json =
        some [id, label, permissions, groups] ∧ NotBlank label) ∧
    ReadAsMade json entry ofEntry (fun e => ∃ model key, Object.of? model key = .ok e.target)
      (∃ id target role permissions, fieldsOf ["acl_id", "target", "role_id", "permissions"] json =
        some [id, target, role, permissions] ∧ KeyNotBlank target) := by
  refine ⟨fun p _ => ⟨permission_text p, iff_true_intro (permission_made p)⟩,
    fun m _ => ⟨parsed_text m.parse_toText, iff_true_intro (model_made m)⟩,
    fun p _ => ⟨parsed_text p.parse_toText, iff_true_intro ⟨p.toText, p.parse_toText⟩⟩,
    fun s read => ⟨rfl, nonBlank_made_iff.trans (notBlank_iff read).symm⟩,
    fun o read => ⟨object_ofObject o, object_made_iff.trans (keyNotBlank_iff read).symm⟩,
    fun space read => ⟨space_ofSpace space, space_made_iff.trans ?_⟩,
    fun p read => ⟨labelledPermission_ofLabelledPermission p, labelledPermission_made_iff.trans ?_⟩,
    fun r read => ⟨role_ofRole r, role_made_iff.trans ?_⟩,
    fun e read => ?_⟩
  · simp [space_ok read, NotBlank, and_assoc]
  · obtain ⟨first, fields⟩ := labelledPermission_ok read
    simp [fields, NotBlank, and_assoc]
  · obtain ⟨first, third, fourth, fields⟩ := role_ok read
    simp [fields, NotBlank, and_assoc]
  · obtain ⟨⟨id, given⟩, first, second, third, fourth, fields, target⟩ := entry_ok read
    refine ⟨entry_ofEntry given, object_made_iff.trans ?_⟩
    rw [← keyNotBlank_iff target]
    simp [fields, and_assoc]

/-- An entry given as an array, its identifiers in other forms than the written one, a permission twice,
and a blank before the key. -/
def shelved : Json := .array [
  .text "URN:UUID:00000000-0000-4000-8000-00000000000A", .array [.text "App. Shelf", .text " 7"],
  .text "{00000000-0000-4000-8000-000000000001}", .array [.text "app.view", .text " app . view "]]

theorem read_as_made_when_shelved :
    ∃ e, entry shelved = .ok e ∧ e.target.key = " 7" ∧ entry (ofEntry e) = .ok e ∧
      ∃ model key, Object.of? model key = .ok e.target := by
  obtain ⟨-, -, -, -, -, -, -, -, entries⟩ := read_as_made_iff shelved
  obtain ⟨e, read, key⟩ : ∃ e, entry shelved = .ok e ∧ e.target.key = " 7" := ⟨_, rfl, rfl⟩
  obtain ⟨back, made⟩ := entries e read
  exact ⟨e, read, key, back, made.mpr ⟨_, _, _, _, rfl, _, _, rfl, _, rfl, by decide⟩⟩

/-- What nothing makes is read: a blank text, a space whose name has a blank in it, and records with a
blank label or key. -/
theorem unmade_read :
    (∃ s, text (.text " ") = .ok s ∧ ¬ ∃ t, nonBlank t = .ok s) ∧
    (∃ space, Record.space (.object [("name", .text "a b"), ("label", .text "App")]) = .ok space ∧
      ¬ ∃ name label, Space.of? name label = .ok space) ∧
    (∃ p, labelledPermission (.object [("id", .text "app.view"), ("label", .text " ")]) = .ok p ∧
      ¬ ∃ space name label, LabelledPermission.of? space name label = .ok p) ∧
    (∃ o, object (.object [("model", .text "app.shelf"), ("object_id", .text " ")]) = .ok o ∧
      ¬ ∃ model key, Object.of? model key = .ok o) ∧
    (∃ r, role (.object [("role_id", .text "00000000-0000-4000-8000-000000000001"), ("label", .text " "),
        ("permissions", .array []), ("groups", .array [])]) = .ok r ∧
      ¬ ∃ id label permissions groups, Role.of? id label permissions groups = .ok r) ∧
    (∃ e, entry (.object [("acl_id", .text "00000000-0000-4000-8000-000000000001"),
        ("target", .object [("model", .text "app.shelf"), ("object_id", .text " ")]),
        ("role_id", .text "00000000-0000-4000-8000-000000000001"), ("permissions", .array [])]) = .ok e ∧
      ¬ ∃ model key, Object.of? model key = .ok e.target) := by
  refine ⟨⟨_, rfl, ?_⟩, ⟨_, rfl, ?_⟩, ⟨_, rfl, ?_⟩, ⟨_, rfl, ?_⟩, ⟨_, rfl, ?_⟩, ⟨_, rfl, ?_⟩⟩
  · exact fun made => absurd (nonBlank_made_iff.mp made) (by decide)
  · exact fun made => absurd (space_made_iff.mp made).1 (by decide)
  · exact fun made => absurd (labelledPermission_made_iff.mp made) (by decide)
  · exact fun made => absurd (object_made_iff.mp made) (by decide)
  · exact fun made => absurd (role_made_iff.mp made) (by decide)
  · exact fun made => absurd (object_made_iff.mp made) (by decide)

end Entitlement.Record
