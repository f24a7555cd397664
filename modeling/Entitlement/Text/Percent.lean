import Entitlement.Text.Cut
import Entitlement.Text.Numeral
import Entitlement.Text.Utf8

/-!
# Percent escapes and form fields

`percentDecode?` reads the escapes of a path segment and fails on bytes that are no UTF-8;
`formDecode` reads a form field, where a plus sign is a space and broken bytes are replaced;
`formPairs` takes a query apart into its fields. An escape that is not two hexadecimal digits
stands for itself.
-/

namespace Entitlement.Text

/-- The bytes that escaped characters stand for. -/
def percentBytes : List Char → List UInt8
  | '%' :: high :: low :: rest =>
    match hexDigit? high, hexDigit? low with
    | some h, some l => UInt8.ofNat (16 * h + l) :: percentBytes rest
    | _, _ => toUtf8 ['%'] ++ percentBytes (high :: low :: rest)
  | c :: rest => toUtf8 [c] ++ percentBytes rest
  | [] => []

/-- The text of an escaped path segment. -/
def percentDecode? (s : String) : Option String := fromUtf8? (percentBytes s.toList)

/-- The text of an escaped form field. -/
def formDecode (s : String) : String :=
  fromUtf8Lossy (percentBytes (s.toList.map fun c => if c = '+' then ' ' else c))

/-- The fields of a query in order: pieces between `&`, empty ones skipped, each cut at its first
`=`; a piece without one has the empty value. -/
def formPairs (query : String) : List (String × String) :=
  ((split '&' query).filter (· ≠ "")).map fun piece =>
    match cut '=' piece with
    | some (key, value) => (formDecode key, formDecode value)
    | none => (formDecode piece, "")

end Entitlement.Text
