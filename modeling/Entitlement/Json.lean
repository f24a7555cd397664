/-!
# JSON values

Values of the data format in which sites talk to their clients. The members of an object stand in
the order in which they were written.
-/

namespace Entitlement

/-- A JSON value; a number is a mantissa with some of its digits behind the point. -/
inductive Json where
  | null
  | bool (value : Bool)
  | number (mantissa : Int) (places : Nat)
  | text (value : String)
  | array (items : List Json)
  | object (members : List (String × Json))

namespace Json

instance : Inhabited Json := ⟨.null⟩

def texts (values : List String) : Json := .array (values.map .text)

/-- A value if there is one, and else null. -/
def ofOption {α : Type} (render : α → Json) : Option α → Json
  | some a => render a
  | none => .null

end Json

end Entitlement
