import Entitlement.Failure
import Entitlement.Proofs.Naming.Written

/-!
# What parses as an identifier

`Spells` is the grammar that permissions, models and paths share: parts with a dot between each two and
white space around each. `identifiers_read_exactly` says that a parser takes exactly the texts that
spell parts of its own kind, and what it makes of them.
-/

namespace Entitlement

namespace Text

/-- The text spells the parts in their order: white space may stand around each, and a dot stands
between each two. -/
inductive Spells : String → List String → Prop where
  | last {before part after : String} (front : allBlank before = true) (back : allBlank after = true) :
      Spells (before ++ part ++ after) [part]
  | cons {before part after rest : String} {parts : List String} (front : allBlank before = true)
      (back : allBlank after = true) (others : Spells rest parts) :
      Spells (before ++ part ++ after ++ "." ++ rest) (part :: parts)

/-- The texts spell words that are the same up to the case of letters. -/
def Alike (s t : String) : Prop :=
  ∃ words words', Spells s words ∧ Spells t words' ∧ (∀ word ∈ words ++ words', IsWord word) ∧
    words.map lower = words'.map lower

/-- A text without a dot that trimming leaves alone. -/
def IsPart (s : String) : Prop := trim s = s ∧ '.' ∉ s.toList

variable {s before part after : String} {parts : List String}

theorem isPart_of_isWord (word : IsWord s) : IsPart s := ⟨trim_of_isWord word, dot_not_mem_of_isWord word⟩

theorem isPart_of_words {words : List String} (all : ∀ word ∈ words, IsWord word) :
    ∀ word ∈ words, IsPart word := fun word mem => isPart_of_isWord (all word mem)

theorem isPart_of_isSegment (segment : IsSegment s) : IsPart s :=
  ⟨trim_of_isSegment segment, dot_not_mem_of_isSegment segment⟩

/-! ### White space around a text -/

theorem trimChars_append {before after cs : List Char} (front : before.all isBlank = true)
    (back : after.all isBlank = true) : trimChars (before ++ cs ++ after) = trimChars cs := by
  have skip {blank : List Char} (all : blank.all isBlank = true) (cs : List Char) :
      (blank ++ cs).dropWhile isBlank = cs.dropWhile isBlank := by
    rw [List.dropWhile_append, dropWhile_eq_nil_of_all all]
    rfl
  unfold trimChars
  rw [List.append_assoc, skip front, List.dropWhile_append]
  split
  · rename_i none
    rw [dropWhile_eq_nil_of_all back, List.isEmpty_iff.mp none]
  · rw [List.reverse_append, skip (List.all_reverse.trans back)]

/-- What is trimmed off a text is white space. -/
theorem exists_trim (s : String) : ∃ before after, allBlank before = true ∧ allBlank after = true ∧
    s = before ++ trim s ++ after := by
  let rest := (s.toList.dropWhile isBlank).reverse
  refine ⟨.ofList (s.toList.takeWhile isBlank), .ofList (rest.takeWhile isBlank).reverse, ?_, ?_, ?_⟩
  · simp [allBlank]
  · simp [allBlank]
  · have back : rest.reverse = (rest.dropWhile isBlank).reverse ++ (rest.takeWhile isBlank).reverse := by
      rw [← List.reverse_append, List.takeWhile_append_dropWhile]
    have whole : s.toList = s.toList.takeWhile isBlank ++ ((rest.dropWhile isBlank).reverse ++
        (rest.takeWhile isBlank).reverse) := by
      rw [← back, List.reverse_reverse, List.takeWhile_append_dropWhile]
    apply String.toList_injective
    rw [String.toList_append, String.toList_append, trim]
    simp only [String.toList_ofList, List.append_assoc]
    exact whole

theorem trim_padded (front : allBlank before = true) (back : allBlank after = true)
    (plain : trim part = part) : trim (before ++ part ++ after) = part := by
  rw [trim, String.toList_append, String.toList_append, trimChars_append front back]
  exact plain

theorem dot_not_mem_of_allBlank (blank : allBlank s = true) : '.' ∉ s.toList := by
  intro mem
  exact absurd (List.all_eq_true.mp blank '.' mem) (by decide)

theorem dot_not_mem_padded (front : allBlank before = true) (back : allBlank after = true)
    (free : '.' ∉ part.toList) : '.' ∉ (before ++ part ++ after).toList := by
  simp only [String.toList_append, List.mem_append, not_or]
  exact ⟨⟨dot_not_mem_of_allBlank front, free⟩, dot_not_mem_of_allBlank back⟩

theorem dot_not_mem_of_trim (free : '.' ∉ (trim s).toList) : '.' ∉ s.toList := by
  obtain ⟨before, after, front, back, whole⟩ := exists_trim s
  rw [whole]
  exact dot_not_mem_padded front back free

/-! ### Texts and the parts they spell -/

theorem exists_first_dot (dotted : '.' ∈ s.toList) :
    ∃ before after, s = before ++ "." ++ after ∧ '.' ∉ before.toList := by
  obtain ⟨before, after, whole, free⟩ := List.eq_append_cons_of_mem dotted
  refine ⟨.ofList before, .ofList after, ?_, by simpa using free⟩
  apply String.toList_injective
  simp [whole]

/-- Every text spells its pieces. -/
theorem spells_split (s : String) : Spells s ((split '.' s).map trim) := by
  by_cases dotted : '.' ∈ s.toList
  · obtain ⟨piece, rest, whole, free⟩ := exists_first_dot dotted
    obtain ⟨before, after, front, back, padded⟩ := exists_trim piece
    -- What stands after the first dot is shorter, so it spells its own pieces.
    have shorter : rest.length < s.length := by
      rw [whole, String.length_append, String.length_append]
      change rest.length < piece.length + 1 + rest.length
      omega
    have spells : Spells (before ++ trim piece ++ after ++ "." ++ rest)
        (trim piece :: (split '.' rest).map trim) := .cons front back (spells_split rest)
    rw [← padded, ← whole] at spells
    rw [whole, split_append free, ← whole]
    exact spells
  · obtain ⟨before, after, front, back, padded⟩ := exists_trim s
    have spells : Spells (before ++ trim s ++ after) [trim s] := .last front back
    rw [← padded] at spells
    rw [split_of_not_mem dotted]
    exact spells
termination_by s.length

theorem Spells.ne_nil (spells : Spells s parts) : parts ≠ [] := by
  cases spells <;> simp

theorem Spells.pieces (spells : Spells s parts) (plain : ∀ part ∈ parts, IsPart part) :
    (split '.' s).map trim = parts := by
  induction spells with
  | last front back =>
    obtain ⟨trimmed, free⟩ := List.forall_mem_singleton.mp plain
    rw [split_of_not_mem (dot_not_mem_padded front back free), List.map_singleton,
      trim_padded front back trimmed]
  | cons front back others ih =>
    obtain ⟨⟨trimmed, free⟩, plain⟩ := List.forall_mem_cons.mp plain
    rw [split_append (dot_not_mem_padded front back free), List.map_cons, ih plain,
      trim_padded front back trimmed]

theorem spells_iff (plain : ∀ part ∈ parts, IsPart part) :
    Spells s parts ↔ (split '.' s).map trim = parts := by
  constructor
  · intro spells
    exact spells.pieces plain
  · rintro rfl
    exact spells_split s

theorem Spells.unique {parts' : List String} (spells : Spells s parts) (spells' : Spells s parts')
    (plain : ∀ part ∈ parts, IsPart part) (plain' : ∀ part ∈ parts', IsPart part) : parts = parts' :=
  (spells.pieces plain).symm.trans (spells'.pieces plain')

/-- A cut at the first dot gives two parts exactly if there is no other dot. -/
theorem exists_cut_iff {first second : String} (free : '.' ∉ second.toList) :
    (∃ before after, cut '.' s = some (before, after) ∧ trim before = first ∧ trim after = second) ↔
      (split '.' s).map trim = [first, second] := by
  by_cases dotted : '.' ∈ s.toList
  · obtain ⟨before, after, rfl, alone⟩ := exists_first_dot dotted
    rw [cut_dot alone, split_append alone]
    constructor
    · rintro ⟨_, _, same, rfl, rfl⟩
      cases same
      rw [split_of_not_mem (dot_not_mem_of_trim free)]
      rfl
    · intro pieces
      obtain ⟨first, pieces⟩ := List.cons.inj pieces
      obtain ⟨piece, single, second⟩ := List.map_eq_singleton_iff.mp pieces
      rw [eq_of_split_singleton single] at second
      exact ⟨before, after, rfl, first, second⟩
  · constructor
    · rintro ⟨before, after, found, -, -⟩
      exact absurd (dot_mem_of_cut found) dotted
    · intro pieces
      rw [split_of_not_mem dotted] at pieces
      cases pieces

end Text

open Text

/-! ### Permissions, models and paths -/

variable {s t : String}

theorem Permission.of?_ok_iff {p : Permission} :
    Permission.of? s t = .ok p ↔ trim s = p.space ∧ trim t = p.name := by
  constructor
  · intro made
    obtain ⟨space, first, made⟩ := bind_ok made
    obtain ⟨name, second, made⟩ := bind_ok made
    cases made
    exact ⟨readSegment_ok_iff.mp first, readSegment_ok_iff.mp second⟩
  · rintro ⟨space, name⟩
    have first : readSegment .permissionSpace s = .ok ⟨p.space, p.space_segment⟩ :=
      readSegment_ok_iff.mpr space
    have second : readSegment .permissionName t = .ok ⟨p.name, p.name_segment⟩ :=
      readSegment_ok_iff.mpr name
    rw [Permission.of?, first, second]
    rfl

theorem Space.of?_ok_iff {name label : String} {space : Space} : Space.of? name label = .ok space ↔
    trim name = space.name ∧ IsSegment space.name ∧ label = space.label ∧ allBlank label = false := by
  constructor
  · intro made
    obtain ⟨segment, read, made⟩ := bind_ok made
    obtain ⟨filled, rfl⟩ := ite_allBlank_ok_iff.mp made
    exact ⟨readSegment_ok_iff.mp read, segment.property, rfl, filled⟩
  · rintro ⟨trimmed, segment, rfl, filled⟩
    have read : readSegment .permissionSpace name = .ok ⟨space.name, segment⟩ :=
      readSegment_ok_iff.mpr trimmed
    rw [Space.of?, read]
    exact ite_allBlank_ok_iff.mpr ⟨filled, rfl⟩

theorem LabelledPermission.of?_ok_iff {space : Space} {name label : String} {p : LabelledPermission} :
    LabelledPermission.of? space name label = .ok p ↔
      trim space.name = p.id.space ∧ trim name = p.id.name ∧ label = p.label ∧
        allBlank label = false := by
  constructor
  · intro made
    obtain ⟨id, first, made⟩ := bind_ok made
    obtain ⟨filled, rfl⟩ := ite_allBlank_ok_iff.mp made
    obtain ⟨outer, inner⟩ := Permission.of?_ok_iff.mp first
    exact ⟨outer, inner, rfl, filled⟩
  · rintro ⟨outer, inner, rfl, filled⟩
    have read : Permission.of? space.name name = .ok p.id := Permission.of?_ok_iff.mpr ⟨outer, inner⟩
    rw [LabelledPermission.of?, read]
    exact ite_allBlank_ok_iff.mpr ⟨filled, rfl⟩

theorem Permission.parse_ok_iff {p : Permission} :
    Permission.parse s = .ok p ↔ Spells s [p.space, p.name] := by
  have space := isPart_of_isSegment p.space_segment
  have name := isPart_of_isSegment p.name_segment
  rw [spells_iff (by simp [space, name]), ← exists_cut_iff name.2, Permission.parse]
  cases cut '.' s with
  | none => simp
  | some halves =>
    obtain ⟨before, after⟩ := halves
    simp [Permission.of?_ok_iff, and_assoc]

theorem Model.of?_ok_iff {m : Model} : Model.of? s t = .ok m ↔
    (IsWord (trim s) ∧ lower (trim s) = m.app) ∧ IsWord (trim t) ∧ lower (trim t) = m.name := by
  constructor
  · intro made
    obtain ⟨app, first, made⟩ := bind_ok made
    obtain ⟨name, second, made⟩ := bind_ok made
    cases made
    exact ⟨readWord_ok_iff.mp first, readWord_ok_iff.mp second⟩
  · rintro ⟨app, name⟩
    have first : readWord .appLabel s = .ok ⟨m.app, m.app_word⟩ := readWord_ok_iff.mpr app
    have second : readWord .modelName t = .ok ⟨m.name, m.name_word⟩ := readWord_ok_iff.mpr name
    rw [Model.of?, first, second]
    rfl

theorem Model.parse_ok_iff {m : Model} : Model.parse s = .ok m ↔
    ∃ app name, (∀ word ∈ [app, name], IsWord word) ∧ Spells s [app, name] ∧
      lower app = m.app ∧ lower name = m.name := by
  constructor
  · intro read
    unfold Model.parse at read
    split at read
    · rename_i before after found
      obtain ⟨⟨app, lowered⟩, name, lowered'⟩ := Model.of?_ok_iff.mp read
      have words : ∀ word ∈ [trim before, trim after], IsWord word := by simp [app, name]
      refine ⟨_, _, words, ?_, lowered, lowered'⟩
      rw [spells_iff (isPart_of_words words), ← exists_cut_iff (dot_not_mem_of_isWord name)]
      exact ⟨before, after, found, rfl, rfl⟩
    · cases read
  · rintro ⟨app, name, words, spells, lowered, lowered'⟩
    have first := words app (by simp)
    have second := words name (by simp)
    rw [spells_iff (isPart_of_words words), ← exists_cut_iff (dot_not_mem_of_isWord second)] at spells
    obtain ⟨before, after, found, rfl, rfl⟩ := spells
    rw [Model.parse, found]
    exact Model.of?_ok_iff.mpr ⟨⟨first, lowered⟩, second, lowered'⟩

theorem Model.eq_iff_alike {m n : Model} (read : Model.parse s = .ok m) (read' : Model.parse t = .ok n) :
    m = n ↔ Alike s t := by
  obtain ⟨app, name, words, spells, lowered⟩ := Model.parse_ok_iff.mp read
  obtain ⟨app', name', words', spells', lowered'⟩ := Model.parse_ok_iff.mp read'
  have same : m = n ↔ [app, name].map lower = [app', name'].map lower := by
    obtain ⟨_, _, _, _⟩ := m
    obtain ⟨_, _, _, _⟩ := n
    simp [lowered, lowered']
  rw [same]
  constructor
  · intro agree
    refine ⟨_, _, spells, spells', fun word mem => ?_, agree⟩
    exact (List.mem_append.mp mem).elim (words word) (words' word)
  · rintro ⟨first, second, spelled, spelled', all, agree⟩
    obtain ⟨each, each'⟩ := List.forall_mem_append.mp all
    rw [spells.unique spelled (isPart_of_words words) (isPart_of_words each),
      spells'.unique spelled' (isPart_of_words words') (isPart_of_words each')]
    exact agree

theorem Path.parse_ok_iff {path : Path} : Path.parse s = .ok path ↔ Spells s path.hops := by
  rw [spells_iff (isPart_of_words path.words)]
  exact Path.parse_pieces_iff

/-- Permissions, models and paths are read off exactly the texts that spell segments and words, and are
made of what is spelled; models without its capitals, so that texts which differ in nothing but case and
white space around the words name the same model. -/
theorem identifiers_read_exactly :
    (∀ s space name, (∃ p, Permission.parse s = .ok p ∧ p.space = space ∧ p.name = name) ↔
      IsSegment space ∧ IsSegment name ∧ Spells s [space, name]) ∧
    (∀ s app name, (∃ m, Model.parse s = .ok m ∧ m.app = app ∧ m.name = name) ↔
      ∃ first second, IsWord first ∧ IsWord second ∧ Spells s [first, second] ∧
        lower first = app ∧ lower second = name) ∧
    (∀ s t m n, Model.parse s = .ok m → Model.parse t = .ok n → (m = n ↔ Alike s t)) ∧
    (∀ s hops, (∃ path, Path.parse s = .ok path ∧ path.hops = hops) ↔
      (∀ hop ∈ hops, IsWord hop) ∧ Spells s hops) := by
  refine ⟨fun s space name => ⟨?_, ?_⟩, fun s app name => ⟨?_, ?_⟩, fun s t m n => Model.eq_iff_alike,
    fun s hops => ⟨?_, ?_⟩⟩
  · rintro ⟨p, read, rfl, rfl⟩
    exact ⟨p.space_segment, p.name_segment, Permission.parse_ok_iff.mp read⟩
  · rintro ⟨first, second, spells⟩
    exact ⟨⟨space, name, first, second⟩, Permission.parse_ok_iff.mpr spells, rfl, rfl⟩
  · rintro ⟨m, read, rfl, rfl⟩
    obtain ⟨first, second, words, spells, lowered⟩ := Model.parse_ok_iff.mp read
    exact ⟨first, second, words first (by simp), words second (by simp), spells, lowered⟩
  · rintro ⟨first, second, word, word', spells, rfl, rfl⟩
    refine ⟨⟨lower first, lower second, isLowerWord_lower word, isLowerWord_lower word'⟩, ?_, rfl, rfl⟩
    exact Model.parse_ok_iff.mpr ⟨first, second, by simp [word, word'], spells, rfl, rfl⟩
  · rintro ⟨path, read, rfl⟩
    exact ⟨path.words, Path.parse_ok_iff.mp read⟩
  · rintro ⟨words, spells⟩
    exact ⟨⟨hops, spells.ne_nil, words⟩, Path.parse_ok_iff.mpr spells, rfl⟩

theorem identifiers_read_exactly_when_spaced :
    ∃ m, Model.parse " Permissions . ROLE" = .ok m ∧ Model.parse "pERMISSIONS.role\t" = .ok m ∧
      Alike " Permissions . ROLE" "pERMISSIONS.role\t" := by
  obtain ⟨-, -, models, -⟩ := identifiers_read_exactly
  let m : Model := ⟨"permissions", "role", by decide, by decide⟩
  have first : Model.parse " Permissions . ROLE" = .ok m := rfl
  have second : Model.parse "pERMISSIONS.role\t" = .ok m := rfl
  exact ⟨m, first, second, (models _ _ m m first second).mp rfl⟩

end Entitlement
