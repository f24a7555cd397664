import Entitlement.Text.Cut
import Entitlement.Text.Numeral

/-!
# Internet addresses

Reading and writing IPv4 and IPv6 addresses. An IPv4 address is four decimal bytes without leading
zeros; an IPv6 address has up to four hexadecimal digits a group, at most one `::` in place of one
or more zero groups, and may end in an IPv4 address. Written, an IPv6 address has its first longest
run of two or more zero groups as `::`.
-/

namespace Entitlement

/-- An internet address: four bytes or eight groups of 16 bits. -/
inductive Address where
  | v4 (bytes : List Nat)
  | v6 (groups : List Nat)
deriving DecidableEq

namespace Address

open Text

/-! ### Reading -/

/-- A decimal byte without leading zeros, and the rest. -/
def readByte (cs : List Char) : Option (Nat × List Char) :=
  let digits := cs.takeWhile Char.isDigit
  if digits = [] ∨ 3 < digits.length ∨ (digits.head? = some '0' ∧ 1 < digits.length) then none
  else
    match digitsValue digits with
    | some n => if n ≤ 255 then some (n, cs.dropWhile Char.isDigit) else none
    | none => none

/-- A character that has to come next, and the rest. -/
def readMark (mark : Char) : List Char → Option (List Char)
  | [] => none
  | c :: rest => if c = mark then some rest else none

/-- Four bytes between dots, and the rest. -/
def readV4 (cs : List Char) : Option (List Nat × List Char) := do
  let (a, cs) ← readByte cs
  let (b, cs) ← readByte (← readMark '.' cs)
  let (c, cs) ← readByte (← readMark '.' cs)
  let (d, cs) ← readByte (← readMark '.' cs)
  return ([a, b, c, d], cs)

/-- One to four hexadecimal digits, and the rest. -/
def readGroup (cs : List Char) : Option (Nat × List Char) :=
  let digits := cs.takeWhile fun c => (hexDigit? c).isSome
  if digits = [] ∨ 4 < digits.length then none
  else (hexValue? digits).map fun n => (n, cs.dropWhile fun c => (hexDigit? c).isSome)

/-- What separates a group from the one before it; nothing stands before the first. -/
def readSeparator (first : Bool) (cs : List Char) : Option (List Char) :=
  if first then some cs else readMark ':' cs

/-- At most `room` groups between colons, the last two perhaps as an IPv4 address; also whether they
ended in one, and the rest. -/
def readGroups (first : Bool) : (room : Nat) → List Char → List Nat × Bool × List Char
  | 0, cs => ([], false, cs)
  | room + 1, cs =>
    let tail := if room = 0 then none else (readSeparator first cs).bind readV4
    match tail with
    | some ([a, b, c, d], rest) => ([256 * a + b, 256 * c + d], true, rest)
    | _ =>
      match (readSeparator first cs).bind readGroup with
      | some (group, rest) =>
        let (groups, ended, rest) := readGroups false room rest
        (group :: groups, ended, rest)
      | none => ([], false, cs)

/-- Eight groups, or fewer with `::` among them; the rest has to be empty. -/
def readV6 (cs : List Char) : Option (List Nat) :=
  let (head, ended, rest) := readGroups true 8 cs
  if head.length = 8 then if rest = [] then some head else none
  else if ended then none
  else
    match rest with
    | ':' :: ':' :: rest =>
      let (tail, _, rest) := readGroups true (7 - head.length) rest
      if rest = [] then some (head ++ List.replicate (8 - head.length - tail.length) 0 ++ tail)
      else none
    | _ => none

def ofText? (s : String) : Option Address :=
  match readV4 s.toList with
  | some (bytes, []) => some (.v4 bytes)
  | _ => (readV6 s.toList).map .v6

/-! ### Writing -/

def v4Text (bytes : List Nat) : String := join "." (bytes.map toString)

/-- A group without leading zeros. -/
def groupText (group : Nat) : String :=
  String.ofList ((hexDigits 3 (group / 16)).dropWhile (· = '0') ++ [hexChar (group % 16)])

/-- How many zero groups a list begins with. -/
def zeroRun (groups : List Nat) : Nat := (groups.takeWhile (· = 0)).length

/-- Where the first longest run of zero groups begins, and its length. -/
def longestZeroRun : List Nat → Nat × Nat
  | [] => (0, 0)
  | group :: rest =>
    let here := zeroRun (group :: rest)
    let (start, length) := longestZeroRun rest
    if length ≤ here then (0, here) else (start + 1, length)

/-- The written form of eight groups. -/
def v6Text (groups : List Nat) : String :=
  match groups with
  | [0, 0, 0, 0, 0, 0xFFFF, high, low] =>
    "::ffff:" ++ v4Text [high / 256, high % 256, low / 256, low % 256]
  | _ =>
    let (start, length) := longestZeroRun groups
    let text := fun groups => join ":" (groups.map groupText)
    if 1 < length then text (groups.take start) ++ "::" ++ text (groups.drop (start + length))
    else text groups

def withPort (address : Address) (port : Nat) : String :=
  match address with
  | .v4 bytes => v4Text bytes ++ ":" ++ toString port
  | .v6 groups => "[" ++ v6Text groups ++ "]:" ++ toString port

end Address

end Entitlement
