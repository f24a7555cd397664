/-!
# Media types

Which content types announce a JSON body: `application/json`, and application subtypes that end in
`+json`, in either case and with any parameters. Spaces may stand before a parameter and after a
value in quotes, and nowhere else.
-/

namespace Entitlement.Http

/-- A character of a media type's names and of parameters without quotes. -/
def isTokenChar (c : Char) : Bool :=
  c.isAlphanum || "!#$&-^_.+%'*\x60|~".toList.contains c

/-- A character that may stand between quotes. -/
def isQuotedChar (c : Char) : Bool := '\x20' ≤ c && c ≤ '\x7e'

/-- Drops the spaces at the beginning. -/
def skipSpaces (cs : List Char) : List Char := cs.dropWhile (· = ' ')

/-- The rest after a value in quotes, from its closing quote on. The value is not empty: a quote at
its very beginning is its first character. -/
def skipQuoted : List Char → Option (List Char)
  | [] => none
  | c :: rest =>
    if isQuotedChar c then
      match rest.dropWhile fun c => isQuotedChar c && c != '"' with
      | '"' :: rest => some (skipSpaces rest)
      | _ => none
    else none

/-- The rest after the value of a parameter. One without quotes is empty only at the end. -/
def skipParameterValue : List Char → Option (List Char)
  | '"' :: rest => skipQuoted rest
  | cs =>
    match cs.dropWhile isTokenChar with
    | [] => some []
    | rest => if rest.length < cs.length then some rest else none

/-- Whether a text is a run of parameters with a semicolon after each but the last, where one is
optional. -/
def areParameters : (fuel : Nat) → List Char → Bool
  | 0, _ => false
  | fuel + 1, cs =>
    match skipSpaces cs with
    | [] => true
    | cs =>
      match cs.dropWhile isTokenChar with
      | '=' :: rest =>
        cs.takeWhile isTokenChar ≠ [] &&
          match skipParameterValue rest with
          | some [] => true
          | some (';' :: rest) => areParameters fuel rest
          | _ => false
      | _ => false

/-- The part of a name before its last plus sign and the part after it, if it has one past its
beginning. -/
def cutSuffix (name : List Char) : List Char × Option (List Char) :=
  let suffix := (name.reverse.takeWhile (· ≠ '+')).reverse
  let stem := name.take (name.length - suffix.length - 1)
  if suffix.length < name.length && stem ≠ [] then (stem, some suffix) else (name, none)

/-- Whether a content type announces JSON. -/
def announcesJson (contentType : String) : Bool :=
  let cs := contentType.toList.map Char.toLower
  let type := cs.takeWhile isTokenChar
  match cs.dropWhile isTokenChar with
  | '/' :: rest =>
    let (stem, suffix) := cutSuffix (rest.takeWhile isTokenChar)
    type = "application".toList && (stem = "json".toList || suffix = some "json".toList) &&
      match rest.dropWhile isTokenChar with
      | [] => true
      | ';' :: parameters => areParameters (parameters.length + 1) parameters
      | _ => false
  | _ => false

end Entitlement.Http
