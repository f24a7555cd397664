/-!
# ASCII words

Words of ASCII letters, digits and underscores, and their lower-case form. `isLowerWord_lower` says
that lower case turns a word into one without capitals, `lower_eq_self` that those stay.
-/

namespace Entitlement.Text

/-- An ASCII letter, an ASCII digit or an underscore. -/
def isWordChar (c : Char) : Bool := c.isAlphanum || c == '_'

/-- A text of one or more word characters. -/
def IsWord (s : String) : Prop := s ≠ "" ∧ s.toList.all isWordChar

instance (s : String) : Decidable (IsWord s) := inferInstanceAs (Decidable (_ ∧ _))

/-- The text with its ASCII capitals made small; other characters stay. -/
def lower (s : String) : String := String.ofList (s.toList.map Char.toLower)

/-- A character that lower case leaves alone. -/
def isLowerChar (c : Char) : Bool := c.toLower == c

/-- A word without capitals. -/
def IsLowerWord (s : String) : Prop := IsWord s ∧ s.toList.all isLowerChar

instance (s : String) : Decidable (IsLowerWord s) := inferInstanceAs (Decidable (_ ∧ _))

/-- Lower case leaves a character alone or turns a capital into the small letter 32 places on. -/
theorem toLower_cases (c : Char) :
    c.toLower = c ∨ ∃ n, n < 26 ∧ c.toNat = 65 + n ∧ c.toLower.toNat = 97 + n := by
  unfold Char.toLower
  split
  · rename_i h
    refine Or.inr ⟨c.toNat - 65, ?_⟩
    have low : 65 ≤ c.toNat := UInt32.le_iff_toNat_le.mp h.1
    have high : c.toNat ≤ 90 := UInt32.le_iff_toNat_le.mp h.2
    have moved : (c.val + ('a'.val - 'A'.val)).toNat = c.toNat + 32 := by
      rw [UInt32.toNat_add, show ('a'.val - 'A'.val).toNat = 32 by decide,
        show c.val.toNat = c.toNat from rfl]
      omega
    refine ⟨by omega, by omega, ?_⟩
    show (c.val + ('a'.val - 'A'.val)).toNat = _
    omega
  · exact Or.inl rfl

theorem isWordChar_toLower {c : Char} (h : isWordChar c) : isWordChar c.toLower := by
  rcases toLower_cases c with same | ⟨n, bound, _, moved⟩
  · rwa [same]
  · have small : c.toLower.isLower := by
      have low : 'a'.val ≤ c.toLower.val :=
        UInt32.le_iff_toNat_le.mpr (show 97 ≤ c.toLower.toNat by omega)
      have high : c.toLower.val ≤ 'z'.val :=
        UInt32.le_iff_toNat_le.mpr (show c.toLower.toNat ≤ 122 by omega)
      exact Bool.and_eq_true_iff.mpr ⟨decide_eq_true low, decide_eq_true high⟩
    show (c.toLower.isUpper || c.toLower.isLower || c.toLower.isDigit || c.toLower == '_') = true
    rw [small, Bool.or_true, Bool.true_or, Bool.true_or]

theorem toLower_toLower (c : Char) : c.toLower.toLower = c.toLower := by
  rcases toLower_cases c.toLower with same | ⟨n, bound, big, _⟩
  · exact same
  · rcases toLower_cases c with same | ⟨m, _, _, moved⟩
    · rw [same, same]
    · omega

theorem isLowerWord_lower {s : String} (h : IsWord s) : IsLowerWord (lower s) := by
  have members := List.all_eq_true.mp h.2
  refine ⟨⟨?_, List.all_eq_true.mpr ?_⟩, List.all_eq_true.mpr ?_⟩
  · intro empty
    have := congrArg String.toList empty
    simp [lower] at this
    exact h.1 this
  · intro c mem
    simp only [lower, String.toList_ofList, List.mem_map] at mem
    obtain ⟨d, hd, rfl⟩ := mem
    exact isWordChar_toLower (members d hd)
  · intro c mem
    simp only [lower, String.toList_ofList, List.mem_map] at mem
    obtain ⟨d, _, rfl⟩ := mem
    exact beq_iff_eq.mpr (toLower_toLower d)

theorem lower_eq_self {s : String} (h : IsLowerWord s) : lower s = s := by
  have : s.toList.map Char.toLower = s.toList := by
    refine (List.map_congr_left fun c mem => ?_).trans (List.map_id _)
    exact beq_iff_eq.mp (List.all_eq_true.mp h.2 c mem)
  rw [lower, this, String.ofList_toList]

end Entitlement.Text
