import Entitlement.Model
import Entitlement.Path
import Entitlement.Permission

/-!
# Written forms read back

The written forms of permissions, models and paths parse as what they were written from
(`Permission.parse_toText`, `Model.parse_toText`, `Path.parse_toText`), because a part has no dot in it
and nothing at its ends to be trimmed. So different values have different written forms.
-/

namespace Entitlement

/-! ### Words and segments -/

namespace Text

theorem isBlank_of_isWordChar {c : Char} (word : isWordChar c = true) : isBlank c = false := by
  have within (low high : Char) (both : low.val ≤ c.val ∧ c.val ≤ high.val) :
      low.toNat ≤ c.toNat ∧ c.toNat ≤ high.toNat :=
    both.imp UInt32.le_iff_toNat_le.mp UInt32.le_iff_toNat_le.mp
  have small : (65 ≤ c.toNat ∧ c.toNat ≤ 90) ∨ (97 ≤ c.toNat ∧ c.toNat ≤ 122) ∨
      (48 ≤ c.toNat ∧ c.toNat ≤ 57) ∨ c.toNat = 95 := by
    have kind : (c.isUpper || c.isLower || c.isDigit || c == '_') = true := word
    simp only [Bool.or_eq_true, beq_iff_eq] at kind
    rcases kind with ((upper | lower) | digit) | rfl
    · exact .inl (within 'A' 'Z' (of_decide_eq_true upper))
    · obtain ⟨above, below⟩ := Bool.and_eq_true_iff.mp lower
      exact .inr (.inl (within 'a' 'z' ⟨of_decide_eq_true above, of_decide_eq_true below⟩))
    · obtain ⟨above, below⟩ := Bool.and_eq_true_iff.mp digit
      exact .inr (.inr (.inl (within '0' '9' ⟨of_decide_eq_true above, of_decide_eq_true below⟩)))
    · exact .inr (.inr (.inr rfl))
  simp only [isBlank, blankRanges, List.any_cons, List.any_nil, Bool.or_false, Bool.or_eq_false_iff,
    Bool.and_eq_false_iff, decide_eq_false_iff_not]
  omega

theorem trim_of_no_blank {s : String} (plain : ∀ c ∈ s.toList, isBlank c = false) : trim s = s := by
  have front : s.toList.dropWhile isBlank = s.toList := by
    apply dropWhile_isBlank_of_head
    intro c head
    exact plain c (List.mem_of_mem_head? head)
  have back : s.toList.reverse.dropWhile isBlank = s.toList.reverse := by
    apply dropWhile_isBlank_of_head
    intro c head
    exact plain c (List.mem_reverse.mp (List.mem_of_mem_head? head))
  rw [trim, trimChars, front, back, List.reverse_reverse, String.ofList_toList]

theorem trim_of_isWord {s : String} (word : IsWord s) : trim s = s :=
  trim_of_no_blank fun c mem => isBlank_of_isWordChar (List.all_eq_true.mp word.2 c mem)

theorem dot_not_mem_of_isWord {s : String} (word : IsWord s) : '.' ∉ s.toList := by
  intro mem
  exact absurd (List.all_eq_true.mp word.2 '.' mem) (by decide)

theorem trim_of_isSegment {s : String} (segment : IsSegment s) : trim s = s := by
  apply trim_of_no_blank
  intro c mem
  have plain := List.all_eq_true.mp segment.2 c mem
  rw [isSegmentChar, Bool.and_eq_true, Bool.not_eq_true'] at plain
  exact plain.2

theorem dot_not_mem_of_isSegment {s : String} (segment : IsSegment s) : '.' ∉ s.toList := by
  intro mem
  exact absurd (List.all_eq_true.mp segment.2 '.' mem) (by decide)

theorem dot_mem_of_cut {s before after : String} (found : cut '.' s = some (before, after)) :
    '.' ∈ s.toList := by
  obtain ⟨halves, halved, -⟩ := Option.map_eq_some_iff.mp found
  rw [(cutChars_eq_some_iff.mp halved).1]
  simp

theorem cut_dot {before after : String} (free : '.' ∉ before.toList) :
    cut '.' (before ++ "." ++ after) = some (before, after) := by
  have halves : cutChars '.' (before ++ "." ++ after).toList = some (before.toList, after.toList) := by
    rw [cutChars_eq_some_iff]
    refine ⟨?_, free⟩
    simp
  rw [cut, halves]
  simp

/-! ### Cutting what was joined -/

theorem splitChars_of_not_mem {sep : Char} {cs : List Char} (free : sep ∉ cs) :
    splitChars sep cs = [cs] := by
  induction cs with
  | nil => rfl
  | cons c rest ih =>
    rw [List.mem_cons, not_or] at free
    obtain ⟨here, free⟩ := free
    rw [splitChars, if_neg (Ne.symm here), ih free]

theorem splitChars_append {sep : Char} {cs rest : List Char} (free : sep ∉ cs) :
    splitChars sep (cs ++ sep :: rest) = cs :: splitChars sep rest := by
  induction cs with
  | nil => rw [List.nil_append, splitChars, if_pos rfl]
  | cons c cs ih =>
    rw [List.mem_cons, not_or] at free
    obtain ⟨here, free⟩ := free
    rw [List.cons_append, splitChars, if_neg (Ne.symm here), ih free]

theorem split_of_not_mem {s : String} (free : '.' ∉ s.toList) : split '.' s = [s] := by
  rw [split, splitChars_of_not_mem free]
  exact congrArg (· :: []) String.ofList_toList

theorem split_append {piece : String} (free : '.' ∉ piece.toList) (rest : String) :
    split '.' (piece ++ "." ++ rest) = piece :: split '.' rest := by
  have whole : (piece ++ "." ++ rest).toList = piece.toList ++ '.' :: rest.toList := by
    rw [String.toList_append, String.toList_append, List.append_assoc]
    rfl
  rw [split, whole, splitChars_append free, List.map_cons, String.ofList_toList]
  rfl

/-- Pieces without dots come back from what they are joined to, in their order. -/
theorem split_join {pieces : List String} (filled : pieces ≠ [])
    (free : ∀ piece ∈ pieces, '.' ∉ piece.toList) : split '.' (join "." pieces) = pieces := by
  induction pieces with
  | nil => exact absurd rfl filled
  | cons piece rest ih =>
    obtain ⟨here, others⟩ := List.forall_mem_cons.mp free
    cases rest with
    | nil => exact split_of_not_mem here
    | cons next rest => rw [join, split_append here, ih (List.cons_ne_nil _ _) others]

/-- A text that is cut into one piece has no separator in it. -/
theorem eq_of_splitChars_singleton {sep : Char} {cs piece : List Char}
    (single : splitChars sep cs = [piece]) : piece = cs := by
  induction cs generalizing piece with
  | nil =>
    cases single
    rfl
  | cons c rest ih =>
    rw [splitChars] at single
    split at single
    · exact absurd (List.cons.inj single).2 (splitChars_ne_nil sep rest)
    · split at single
      · rename_i none
        exact absurd none (splitChars_ne_nil sep rest)
      · rename_i first others cut
        obtain ⟨rfl, rfl⟩ := List.cons.inj single
        rw [ih cut]

theorem eq_of_split_singleton {s piece : String} (single : split '.' s = [piece]) : piece = s := by
  obtain ⟨cs, one, rfl⟩ := List.map_eq_singleton_iff.mp single
  rw [eq_of_splitChars_singleton one, String.ofList_toList]

end Text

open Text

theorem readWord_ok_iff {part : Part} {s : String} {word : { t : String // IsLowerWord t }} :
    readWord part s = .ok word ↔ IsWord (trim s) ∧ lower (trim s) = word := by
  unfold readWord
  dsimp only
  constructor
  · intro read
    split at read
    · cases read
    split at read
    · rename_i filled plain
      rw [← Except.ok.inj read]
      exact ⟨⟨filled, plain⟩, rfl⟩
    · cases read
  · rintro ⟨⟨filled, plain⟩, lowered⟩
    rw [dif_neg filled, dif_pos plain]
    exact congrArg Except.ok (Subtype.ext lowered)

theorem readWord_of_isLowerWord {part : Part} {s : String} (word : IsLowerWord s) :
    readWord part s = .ok ⟨s, word⟩ := by
  have whole : trim s = s := trim_of_isWord word.1
  rw [readWord_ok_iff, whole]
  exact ⟨word.1, lower_eq_self word⟩

theorem Model.parse_toText (m : Model) : Model.parse m.toText = .ok m := by
  have free : '.' ∉ m.app.toList := dot_not_mem_of_isWord m.app_word.1
  unfold Model.parse Model.toText
  rw [cut_dot free]
  dsimp only
  unfold Model.of?
  rw [readWord_of_isLowerWord m.app_word, readWord_of_isLowerWord m.name_word]
  rfl

theorem readSegment_ok_iff {part : Part} {s : String} {segment : { t : String // IsSegment t }} :
    readSegment part s = .ok segment ↔ trim s = segment := by
  unfold readSegment
  dsimp only
  constructor
  · intro read
    split at read
    · cases read
    split at read
    · rw [← Except.ok.inj read]
    · cases read
  · obtain ⟨text, segment⟩ := segment
    rintro rfl
    rw [dif_neg segment.1, dif_pos segment.2]

theorem readSegment_of_isSegment {part : Part} {s : String} (segment : IsSegment s) :
    readSegment part s = .ok ⟨s, segment⟩ :=
  readSegment_ok_iff.mpr (trim_of_isSegment segment)

theorem Permission.parse_toText (p : Permission) : Permission.parse p.toText = .ok p := by
  have free : '.' ∉ p.space.toList := dot_not_mem_of_isSegment p.space_segment
  unfold Permission.parse Permission.toText
  rw [cut_dot free]
  dsimp only
  unfold Permission.of?
  rw [readSegment_of_isSegment p.space_segment, readSegment_of_isSegment p.name_segment]
  rfl

theorem Path.parse_pieces_iff {s : String} {path : Path} :
    Path.parse s = .ok path ↔ (split '.' s).map trim = path.hops := by
  unfold Path.parse
  dsimp only
  constructor
  · intro read
    split at read
    · cases read
    · cases read
      rfl
  · intro pieces
    split
    · rename_i hop found
      have word : IsWord hop := by
        refine path.words hop ?_
        rw [← pieces]
        exact List.mem_of_find?_eq_some found
      exact absurd word (by simpa using List.find?_some found)
    · refine congrArg Except.ok ?_
      cases path
      exact (Path.mk.injEq ..).mpr pieces

theorem Path.parse_toText (p : Path) : Path.parse p.toText = .ok p := by
  rw [parse_pieces_iff, toText, split_join p.filled fun hop mem => dot_not_mem_of_isWord (p.words hop mem)]
  exact (List.map_congr_left fun hop mem => trim_of_isWord (p.words hop mem)).trans (List.map_id _)

theorem Path.hops_of_single {s : String} {path : Path} (read : Path.parse s = .ok path)
    (single : path.hops.length = 1) : path.hops = [trim s] := by
  have hops := parse_pieces_iff.mp read
  rw [← hops, List.length_map] at single
  obtain ⟨piece, one⟩ := List.length_eq_one_iff.mp single
  rw [← hops, one, eq_of_split_singleton one]
  rfl

/-- Values that come back from their written forms have different ones. -/
theorem injective_of_parse {α : Type} {write : α → String} {parse : String → Except Malformed α}
    (back : ∀ a, parse (write a) = .ok a) : Function.Injective write := by
  intro a b same
  have read := back a
  rw [same, back b] at read
  exact (Except.ok.inj read).symm

theorem Model.toText_injective : Function.Injective Model.toText := injective_of_parse parse_toText

theorem Permission.toText_injective : Function.Injective Permission.toText :=
  injective_of_parse parse_toText

theorem Path.toText_injective : Function.Injective Path.toText := injective_of_parse parse_toText

end Entitlement
