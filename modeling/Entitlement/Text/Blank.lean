/-!
# Blank characters

The characters of the Unicode `White_Space` property, and trimming. `trim_eq_empty_iff` says that
trimming empties exactly the texts with no other character.
-/

namespace Entitlement.Text

/-- The code points with the `White_Space` property, as closed ranges in ascending order. -/
def blankRanges : List (Nat × Nat) :=
  [(0x9, 0xD), (0x20, 0x20), (0x85, 0x85), (0xA0, 0xA0), (0x1680, 0x1680), (0x2000, 0x200A),
    (0x2028, 0x2029), (0x202F, 0x202F), (0x205F, 0x205F), (0x3000, 0x3000)]

def isBlank (c : Char) : Bool :=
  blankRanges.any fun range => range.1 ≤ c.toNat && c.toNat ≤ range.2

/-- Drops the blank characters at both ends. -/
def trimChars (cs : List Char) : List Char :=
  ((cs.dropWhile isBlank).reverse.dropWhile isBlank).reverse

def trim (s : String) : String := String.ofList (trimChars s.toList)

/-- Whether a text has nothing but white space in it. -/
def allBlank (s : String) : Bool := s.toList.all isBlank

theorem ite_allBlank_ok_iff {ε α : Type} {s : String} {e : ε} {a b : α} :
    (if allBlank s then Except.error e else .ok a) = .ok b ↔ allBlank s = false ∧ a = b := by
  cases allBlank s <;> simp

theorem dropWhile_eq_nil_of_all {cs : List Char} (h : cs.all isBlank) :
    cs.dropWhile isBlank = [] := by
  induction cs with
  | nil => rfl
  | cons c rest ih =>
    simp only [List.all_cons, Bool.and_eq_true] at h
    rw [List.dropWhile_cons_of_pos h.1, ih h.2]

theorem trimChars_eq_nil_iff {cs : List Char} : trimChars cs = [] ↔ cs.all isBlank := by
  constructor
  · intro h
    simp only [trimChars, List.reverse_eq_nil_iff] at h
    induction cs with
    | nil => rfl
    | cons c rest ih =>
      by_cases hc : isBlank c
      · rw [List.dropWhile_cons_of_pos hc] at h
        simp [hc, ih h]
      · rw [List.dropWhile_cons_of_neg hc, List.reverse_cons, List.dropWhile_append] at h
        split at h
        · simp [List.dropWhile, hc] at h
        · simp at h
  · intro h
    simp [trimChars, dropWhile_eq_nil_of_all h]

/-- Trimming leaves nothing exactly when the text is all blank. -/
theorem trim_eq_empty_iff {s : String} : trim s = "" ↔ allBlank s := by
  rw [trim, allBlank, ← trimChars_eq_nil_iff]
  constructor
  · intro h
    have := congrArg String.toList h
    simpa using this
  · intro h
    rw [h]

theorem dropWhile_isBlank_of_head {cs : List Char} (front : ∀ c ∈ cs.head?, isBlank c = false) :
    cs.dropWhile isBlank = cs := by
  cases cs with
  | nil => rfl
  | cons c rest => rw [List.dropWhile_cons_of_neg (by rw [front c rfl]; exact Bool.false_ne_true)]

theorem head_dropWhile_isBlank (cs : List Char) :
    ∀ c ∈ (cs.dropWhile isBlank).head?, isBlank c = false := by
  induction cs with
  | nil => simp
  | cons c rest ih =>
    by_cases blank : isBlank c
    · rw [List.dropWhile_cons_of_pos blank]
      exact ih
    · rw [List.dropWhile_cons_of_neg blank]
      intro front same
      cases same
      exact Bool.eq_false_iff.mpr blank

/-- What is trimmed begins like the text after its leading blanks, and has no blank at its end. -/
theorem trimChars_trimChars (cs : List Char) : trimChars (trimChars cs) = trimChars cs := by
  have front : (trimChars cs).dropWhile isBlank = trimChars cs := by
    apply dropWhile_isBlank_of_head
    intro c head
    have kept : trimChars cs <+: cs.dropWhile isBlank := by
      have suffix := List.dropWhile_suffix isBlank (l := (cs.dropWhile isBlank).reverse)
      simpa [trimChars] using List.reverse_prefix.mpr suffix
    obtain ⟨rest, whole⟩ := kept
    apply head_dropWhile_isBlank cs c
    rw [← whole, List.head?_append, Option.mem_def.mp head]
    rfl
  have back : (trimChars cs).reverse.dropWhile isBlank = (trimChars cs).reverse := by
    rw [trimChars, List.reverse_reverse]
    exact dropWhile_isBlank_of_head (head_dropWhile_isBlank _)
  rw [trimChars, front, back, List.reverse_reverse]

theorem trim_trim (s : String) : trim (trim s) = trim s := by
  rw [trim, trim, String.toList_ofList, trimChars_trimChars]

theorem allBlank_trim (s : String) : allBlank (trim s) = allBlank s := by
  rw [Bool.eq_iff_iff, ← trim_eq_empty_iff, trim_trim, trim_eq_empty_iff]

end Entitlement.Text
