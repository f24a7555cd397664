import Entitlement.Order
import Entitlement.Text.Numeral

/-!
# UUIDs

128-bit identifiers, written as 32 small hexadecimal digits in five hyphenated groups. Reading
accepts the bare digits, the hyphenated form, the hyphenated form in braces and the one after
`urn:uuid:`, all letters in either case. What is written is read back (`ofText?_toText`).
-/

namespace Entitlement

/-- A 128-bit identifier. -/
structure Uuid where
  bits : BitVec 128
deriving DecidableEq

namespace Uuid

/-- The bits as one number. -/
def toNat (u : Uuid) : Nat := u.bits.toNat

instance : Inhabited Uuid := ⟨⟨0#128⟩⟩
instance : Ord Uuid := ⟨compareOn toNat⟩
instance : Std.TransOrd Uuid := inferInstanceAs (Std.TransCmp (compareOn toNat))
instance : Std.LawfulEqOrd Uuid := lawful_on fun a b h => by
  cases a; cases b; exact congrArg Uuid.mk (BitVec.eq_of_toNat_eq h)

/-- The identifier of a number, all but its last 128 bits dropped. -/
def ofNat (n : Nat) : Uuid := ⟨BitVec.ofNat 128 n⟩

/-- The identifier with every bit zero. -/
def nil : Uuid := ofNat 0

/-- The identifier that a supply of fresh ones hands out in `n`th place: version 4, the place in the
last bits. -/
def drawn (n : Nat) : Uuid := ofNat (0x40008000000000000000 + n)

/-- The version field. -/
def version (u : Uuid) : Nat := (u.bits.extractLsb' 76 4).toNat

/-- Hexadecimal digits cut into the five groups of the written form. -/
def groupDigits (digits : List Char) : List Char :=
  digits.take 8 ++ '-' :: (digits.drop 8).take 4 ++ '-' :: (digits.drop 12).take 4 ++
    '-' :: (digits.drop 16).take 4 ++ '-' :: digits.drop 20

/-- The written form. -/
def toText (u : Uuid) : String := String.ofList (groupDigits (Text.hexDigits 32 u.toNat))

/-- Reads 32 hexadecimal digits. -/
def ofDigits? (digits : List Char) : Option Uuid :=
  if digits.length = 32 then (Text.hexValue? digits).map ofNat else none

/-- Reads 36 characters with a hyphen after the 8th, 12th, 16th and 20th digit. -/
def ofHyphenated? (cs : List Char) : Option Uuid :=
  let digits := cs.filter (· ≠ '-')
  if cs.length = 36 ∧ groupDigits digits = cs then ofDigits? digits else none

/-- Reads an identifier in any accepted form. -/
def ofText? (s : String) : Option Uuid :=
  let cs := s.toList
  let scheme := "urn:uuid:".toList
  if (cs.take scheme.length).map Char.toLower = scheme then ofHyphenated? (cs.drop scheme.length)
  else
    match cs with
    | '{' :: rest => if rest.getLast? = some '}' then ofHyphenated? rest.dropLast else none
    | cs => if cs.length = 32 then ofDigits? cs else ofHyphenated? cs

/-! ### The written form read back -/

section Reading

variable {digits : List Char}

theorem filter_groupDigits (free : '-' ∉ digits) : (groupDigits digits).filter (· ≠ '-') = digits := by
  have whole : digits.take 8 ++ ((digits.drop 8).take 4 ++ ((digits.drop 12).take 4 ++
      ((digits.drop 16).take 4 ++ digits.drop 20))) = digits := by
    have joined (k : Nat) : (digits.drop k).take 4 ++ digits.drop (k + 4) = digits.drop k := by
      rw [← List.drop_drop, List.take_append_drop]
    rw [joined 16, joined 12, joined 8, List.take_append_drop]
  calc (groupDigits digits).filter (· ≠ '-')
    _ = (digits.take 8 ++ ((digits.drop 8).take 4 ++ ((digits.drop 12).take 4 ++
          ((digits.drop 16).take 4 ++ digits.drop 20)))).filter (· ≠ '-') := by
      simp [groupDigits]
    _ = digits := by
      rw [whole, List.filter_eq_self]
      intro c mem
      exact decide_eq_true fun hyphen => free (hyphen ▸ mem)

theorem length_groupDigits (length : digits.length = 32) : (groupDigits digits).length = 36 := by
  simp [groupDigits, length]

theorem ofHyphenated?_groupDigits (length : digits.length = 32) (free : '-' ∉ digits) :
    ofHyphenated? (groupDigits digits) = ofDigits? digits := by
  unfold ofHyphenated?
  rw [filter_groupDigits free]
  exact if_pos ⟨length_groupDigits length, rfl⟩

/-- None of the other accepted forms begins like a group of digits. -/
theorem ofText?_groupDigits (length : digits.length = 32)
    (apart : ∀ c ∈ digits, c ≠ '-' ∧ c ≠ '{' ∧ c.toLower ≠ 'u') :
    ofText? (String.ofList (groupDigits digits)) = ofDigits? digits := by
  rw [← ofHyphenated?_groupDigits length fun mem => (apart _ mem).1 rfl]
  have grouped : (groupDigits digits).length = 36 := length_groupDigits length
  cases digits with
  | nil => cases length
  | cons c rest =>
    obtain ⟨-, brace, scheme⟩ := apart c List.mem_cons_self
    have other : ((groupDigits (c :: rest)).take "urn:uuid:".toList.length).map Char.toLower ≠
        "urn:uuid:".toList := fun same => scheme (List.cons.inj same).1
    unfold ofText?
    rw [String.toList_ofList]
    dsimp only
    rw [if_neg other]
    split
    · rename_i opened
      exact absurd (List.cons.inj opened).1 brace
    · rw [if_neg (by omega)]

end Reading

theorem hexChar_apart : ∀ d, d < 16 →
    Text.hexChar d ≠ '-' ∧ Text.hexChar d ≠ '{' ∧ (Text.hexChar d).toLower ≠ 'u' := by
  decide

theorem ofText?_toText (u : Uuid) : ofText? u.toText = some u := by
  have length : (Text.hexDigits 32 u.toNat).length = 32 := Text.length_hexDigits ..
  have bound : u.toNat < Nat.pow 16 32 := u.bits.isLt
  rw [toText, ofText?_groupDigits length ?_, ofDigits?, if_pos length, Text.hexValue?_hexDigits,
    Nat.mod_eq_of_lt bound]
  · exact congrArg (fun bits => some (Uuid.mk bits)) (BitVec.ofNat_toNat ..)
  · intro c mem
    obtain ⟨d, small, rfl⟩ := Text.mem_hexDigits mem
    exact hexChar_apart d small

end Uuid

end Entitlement
