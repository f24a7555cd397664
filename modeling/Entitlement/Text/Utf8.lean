/-!
# Reading UTF-8

Bytes are read into characters one maximal well-formed or broken piece at a time, so that a strict
reader (`fromUtf8?`) and a lenient one (`fromUtf8Lossy`) differ only in what they make of a broken
piece.
-/

namespace Entitlement.Text

/-- Where a reader stands: between characters, or inside one of which `value` has been read, with
`more + 1` bytes to come and the next one due in `low … high`. -/
inductive Utf8State where
  | start
  | inside (value more low high : Nat)

/-- A byte read between characters: a character, the beginning of one, or a broken piece. -/
def utf8Open (byte : Nat) : List (Option Char) × Utf8State :=
  if byte < 0x80 then ([some (Char.ofNat byte)], .start)
  else if 0xC2 ≤ byte ∧ byte ≤ 0xDF then ([], .inside (byte - 0xC0) 0 0x80 0xBF)
  else if byte = 0xE0 then ([], .inside 0 1 0xA0 0xBF)
  else if byte = 0xED then ([], .inside 0xD 1 0x80 0x9F)
  else if 0xE1 ≤ byte ∧ byte ≤ 0xEF then ([], .inside (byte - 0xE0) 1 0x80 0xBF)
  else if byte = 0xF0 then ([], .inside 0 2 0x90 0xBF)
  else if 0xF1 ≤ byte ∧ byte ≤ 0xF3 then ([], .inside (byte - 0xF0) 2 0x80 0xBF)
  else if byte = 0xF4 then ([], .inside 4 2 0x80 0x8F)
  else ([none], .start)

/-- What one byte adds, a broken piece being `none`. A byte that does not continue the character
before it ends that one as broken and is read afresh. -/
def utf8Step (state : Utf8State) (byte : Nat) : List (Option Char) × Utf8State :=
  match state with
  | .start => utf8Open byte
  | .inside value more low high =>
    if low ≤ byte ∧ byte ≤ high then
      let value := 64 * value + byte % 64
      match more with
      | 0 => ([some (Char.ofNat value)], .start)
      | more + 1 => ([], .inside value more 0x80 0xBF)
    else
      let (pieces, next) := utf8Open byte
      (none :: pieces, next)

/-- The characters and broken pieces of a run of bytes. -/
def utf8Pieces (state : Utf8State) : List UInt8 → List (Option Char)
  | [] =>
    match state with
    | .start => []
    | .inside .. => [none]
  | byte :: rest =>
    let (pieces, next) := utf8Step state byte.toNat
    pieces ++ utf8Pieces next rest

/-- The text of a run of bytes, if they are well formed throughout. -/
def fromUtf8? (bytes : List UInt8) : Option String :=
  ((utf8Pieces .start bytes).mapM id).map String.ofList

/-- The text of a run of bytes, with U+FFFD for each broken piece. -/
def fromUtf8Lossy (bytes : List UInt8) : String :=
  String.ofList ((utf8Pieces .start bytes).map (·.getD '\uFFFD'))

/-- The bytes of a run of characters. -/
def toUtf8 (cs : List Char) : List UInt8 := cs.flatMap String.utf8EncodeChar

end Entitlement.Text
