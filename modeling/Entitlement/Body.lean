import Entitlement.Text.Magnitude

/-!
# Reading JSON of a known shape

A reader takes a text apart from its beginning as far as its own shape goes. The first thing that is
wrong decides between the two ways to fail: a text that is no JSON there (`Fault.malformed`), and one
that is but has another shape (`Fault.misfit`). A record is written as an object, whose members may
come in any order and among others, or as an array of its fields.
-/

namespace Entitlement.Body

open Text

inductive Fault where
  | malformed
  | misfit
deriving DecidableEq

/-- Reads a value off the beginning of a text. -/
abbrev Reader (α : Type) : Type := List Char → Except Fault (α × List Char)

/-- Drops the white space that may stand between tokens. -/
def skipBlank (cs : List Char) : List Char :=
  cs.dropWhile fun c => c = ' ' || c = '\n' || c = '\t' || c = '\r'

/-! ### Strings -/

/-- What stands for one character of a string, or for half of one: itself, or the code unit of an
escape. -/
inductive Unit where
  | plain (c : Char)
  | code (unit : Nat)

/-- The character of an escape of two characters. -/
def escaped? : Char → Option Char
  | '"' => some '"'
  | '\\' => some '\\'
  | '/' => some '/'
  | 'b' => some '\x08'
  | 'f' => some '\x0c'
  | 'n' => some '\n'
  | 'r' => some '\r'
  | 't' => some '\t'
  | _ => none

/-- The units of a string after its opening quote, and the rest after its closing one. -/
def readUnits : Reader (List Unit)
  | [] => .error .malformed
  | '"' :: rest => .ok ([], rest)
  | '\\' :: 'u' :: a :: b :: c :: d :: rest =>
    match hexValue? [a, b, c, d] with
    | some unit => do
      let (units, rest) ← readUnits rest
      return (.code unit :: units, rest)
    | none => .error .malformed
  | '\\' :: c :: rest =>
    match escaped? c with
    | some c => do
      let (units, rest) ← readUnits rest
      return (.plain c :: units, rest)
    | none => .error .malformed
  | c :: rest =>
    if c < ' ' || c = '\\' then .error .malformed
    else do
      let (units, rest) ← readUnits rest
      return (.plain c :: units, rest)

/-- Whether a code unit is the first half of a character. -/
def isHighHalf (unit : Nat) : Bool := 0xD800 ≤ unit && unit ≤ 0xDBFF

/-- Whether a code unit is the second half of a character. -/
def isLowHalf (unit : Nat) : Bool := 0xDC00 ≤ unit && unit ≤ 0xDFFF

/-- The characters of some units, unless half of one is left over. -/
def joinUnits : List Unit → Option (List Char)
  | [] => some []
  | .plain c :: rest => (joinUnits rest).map (c :: ·)
  | .code high :: .code low :: rest =>
    if isHighHalf high && isLowHalf low then
      (joinUnits rest).map
        (Char.ofNat (0x10000 + 0x400 * (high - 0xD800) + (low - 0xDC00)) :: ·)
    else if isHighHalf high || isLowHalf high then none
    else (joinUnits (.code low :: rest)).map (Char.ofNat high :: ·)
  | .code unit :: rest =>
    if isHighHalf unit || isLowHalf unit then none
    else (joinUnits rest).map (Char.ofNat unit :: ·)

/-- The text of a string after its opening quote. -/
def readQuoted : Reader String := fun cs => do
  let (units, rest) ← readUnits cs
  match joinUnits units with
  | some cs => return (String.ofList cs, rest)
  | none => .error .malformed

/-! ### Numbers -/

def readDigits : Reader (List Char) := fun cs =>
  match cs.takeWhile Char.isDigit with
  | [] => .error .malformed
  | digits => .ok (digits, cs.dropWhile Char.isDigit)

/-- A number without sign. A zero before the point is its only digit there. -/
def readMagnitude : Reader Magnitude := fun cs => do
  let (whole, rest) ← readDigits cs
  if whole.head? = some '0' && 1 < whole.length then .error .malformed
  let (fraction, rest) ←
    match rest with
    | '.' :: rest => readDigits rest
    | rest => .ok ([], rest)
  let exponent := fun (sign : Int) cs => do
    let (digits, rest) ← readDigits cs
    return ({ whole, fraction, exponent := sign * (digitsValue digits).getD 0 }, rest)
  match rest with
  | 'e' :: '-' :: rest | 'E' :: '-' :: rest => exponent (-1) rest
  | 'e' :: '+' :: rest | 'E' :: '+' :: rest => exponent 1 rest
  | 'e' :: rest | 'E' :: rest => exponent 1 rest
  | rest => return ({ whole, fraction }, rest)

/-! ### Values of any shape -/

/-- Drops a word that has to come next. -/
def skipWord (word : String) (cs : List Char) : Except Fault (List Char) :=
  if word.toList.isPrefixOf cs then .ok (cs.drop word.length) else .error .malformed

/-- Whether another item follows in an array, and the text from there or from the bracket on. -/
def nextItem (first : Bool) (cs : List Char) : Except Fault (Bool × List Char) :=
  match skipBlank cs with
  | [] => .error .malformed
  | ']' :: rest => .ok (false, ']' :: rest)
  | c :: rest =>
    if first then .ok (true, c :: rest)
    else if c = ',' then
      match skipBlank rest with
      | [] => .error .malformed
      | ']' :: _ => .error .malformed
      | rest => .ok (true, rest)
    else .error .malformed

/-- The name of the next member of an object, if there is one, and the rest; `name` reads it after
its opening quote. -/
def nextMember {α : Type} (name : Reader α) (first : Bool) (cs : List Char) :
    Except Fault (Option α × List Char) :=
  let named := fun cs =>
    match skipBlank cs with
    | '"' :: rest => do
      let (a, rest) ← name rest
      return (some a, rest)
    | _ => .error .malformed
  match skipBlank cs with
  | '}' :: rest => .ok (none, rest)
  | ',' :: rest => if first then .error .malformed else named rest
  | cs => if first then named cs else .error .malformed

def skipColon (cs : List Char) : Except Fault (List Char) :=
  match skipBlank cs with
  | ':' :: rest => .ok rest
  | _ => .error .malformed

mutual

/-- Drops a value of any shape. Its strings and names are not looked at beyond their escapes. -/
def skipValue : (fuel : Nat) → List Char → Except Fault (List Char)
  | 0, _ => .error .malformed
  | fuel + 1, cs =>
    match skipBlank cs with
    | [] => .error .malformed
    | '"' :: rest => (readUnits rest).map (·.2)
    | '[' :: rest => skipItems fuel true rest
    | '{' :: rest => skipMembers fuel true rest
    | 'n' :: rest => skipWord "ull" rest
    | 't' :: rest => skipWord "rue" rest
    | 'f' :: rest => skipWord "alse" rest
    | '-' :: rest => (readMagnitude rest).map (·.2)
    | rest => (readMagnitude rest).map (·.2)

def skipItems : (fuel : Nat) → (first : Bool) → List Char → Except Fault (List Char)
  | 0, _, _ => .error .malformed
  | fuel + 1, first, cs => do
    match ← nextItem first cs with
    | (true, rest) => skipItems fuel false (← skipValue fuel rest)
    | (false, rest) => return rest.drop 1

def skipMembers : (fuel : Nat) → (first : Bool) → List Char → Except Fault (List Char)
  | 0, _, _ => .error .malformed
  | fuel + 1, first, cs => do
    match ← nextMember readUnits first cs with
    | (some _, rest) => skipMembers fuel false (← skipValue fuel (← skipColon rest))
    | (none, rest) => return rest

end

/-- The fault of a value that stands where another shape is called for. -/
def misplaced (cs : List Char) : Fault :=
  let ifRead := fun {α : Type} (result : Except Fault α) =>
    match result with
    | .ok _ => Fault.misfit
    | .error fault => fault
  let ifHeld := fun cs =>
    match readMagnitude cs with
    | .ok (magnitude, _) => if magnitude.isTooGreat then Fault.malformed else .misfit
    | .error fault => fault
  match cs with
  | [] => .malformed
  | '[' :: _ => .misfit
  | '{' :: _ => .misfit
  | '"' :: rest => ifRead (readQuoted rest)
  | 'n' :: rest => ifRead (skipWord "ull" rest)
  | 't' :: rest => ifRead (skipWord "rue" rest)
  | 'f' :: rest => ifRead (skipWord "alse" rest)
  | '-' :: rest => ifHeld rest
  | rest => ifHeld rest

/-! ### Shapes -/

def text : Reader String := fun cs =>
  match skipBlank cs with
  | '"' :: rest => readQuoted rest
  | rest => .error (misplaced rest)

/-- Reads a value and makes something else of it, or finds that it does not fit. -/
def Reader.filterMap {α β : Type} (read : Reader α) (f : α → Option β) : Reader β := fun cs => do
  let (a, rest) ← read cs
  match f a with
  | some b => return (b, rest)
  | none => .error .misfit

/-- Reads an item that an array has to have. -/
def readItem {α : Type} (first : Bool) (read : Reader α) : Reader α := fun cs => do
  match ← nextItem first cs with
  | (true, rest) => read rest
  | (false, _) => .error .misfit

/-- Drops the closing bracket of an array that may have no more items. -/
def endItems (cs : List Char) : Except Fault (List Char) :=
  match skipBlank cs with
  | ']' :: rest => .ok rest
  | _ => .error .malformed

/-- Reads the items of an array and its closing bracket. -/
def readItems {α : Type} (read : Reader α) : (fuel : Nat) → (first : Bool) → Reader (List α)
  | 0, _, _ => .error .malformed
  | fuel + 1, first, cs => do
    match ← nextItem first cs with
    | (true, rest) =>
      let (a, rest) ← read rest
      let (as, rest) ← readItems read fuel false rest
      return (a :: as, rest)
    | (false, rest) => return ([], rest.drop 1)

/-- Reads an array of values of one shape. -/
def list {α : Type} (read : Reader α) : Reader (List α) := fun cs =>
  match skipBlank cs with
  | '[' :: rest => readItems read (rest.length + 1) true rest
  | rest => .error (misplaced rest)

/-- Reads the members of an object and its closing brace. What is to be done with a member depends
on its name and the members before it: `member` reads it, passes it over or finds it a misfit. -/
def readMembers {σ : Type} (member : σ → String → Except Fault (Option (Reader σ))) :
    (fuel : Nat) → (first : Bool) → σ → Reader σ
  | 0, _, _, _ => .error .malformed
  | fuel + 1, first, found, cs => do
    match ← nextMember readQuoted first cs with
    | (none, rest) => return (found, rest)
    | (some name, rest) =>
      match ← member found name with
      | some read =>
        let (found, rest) ← read (← skipColon rest)
        readMembers member fuel false found rest
      | none =>
        let rest ← skipColon rest
        readMembers member fuel false found (← skipValue (2 * rest.length + 2) rest)

/-- Reads a field unless it has been found before. -/
def onceMore {α σ : Type} (found : Option α) (read : Reader α) (keep : α → σ) :
    Except Fault (Option (Reader σ)) :=
  if found.isSome then .error .misfit
  else .ok (some fun cs => (read cs).map fun (a, rest) => (keep a, rest))

def record₁ {α : Type} (name : String) (read : Reader α) : Reader α := fun cs =>
  match skipBlank cs with
  | '[' :: rest => do
    let (a, rest) ← readItem true read rest
    return (a, ← endItems rest)
  | '{' :: rest => do
    let member := fun (found : Option α) key =>
      if key = name then onceMore found read some else .ok none
    match ← readMembers member (rest.length + 1) true none rest with
    | (some a, rest) => return (a, rest)
    | (none, _) => .error .misfit
  | rest => .error (misplaced rest)

def record₂ {α β : Type} (name₁ : String) (read₁ : Reader α) (name₂ : String) (read₂ : Reader β) :
    Reader (α × β) := fun cs =>
  match skipBlank cs with
  | '[' :: rest => do
    let (a, rest) ← readItem true read₁ rest
    let (b, rest) ← readItem false read₂ rest
    return ((a, b), ← endItems rest)
  | '{' :: rest => do
    let member := fun (found : Option α × Option β) key =>
      if key = name₁ then onceMore found.1 read₁ fun a => (some a, found.2)
      else if key = name₂ then onceMore found.2 read₂ fun b => (found.1, some b)
      else .ok none
    match ← readMembers member (rest.length + 1) true (none, none) rest with
    | ((some a, some b), rest) => return ((a, b), rest)
    | _ => .error .misfit
  | rest => .error (misplaced rest)

def readAll {α : Type} (read : Reader α) (s : String) : Except Fault α := do
  let (a, rest) ← read s.toList
  if skipBlank rest = [] then return a else .error .malformed

end Entitlement.Body
