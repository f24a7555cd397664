import Entitlement.Malformed
import Entitlement.Order
import Entitlement.Text.Blank
import Entitlement.Text.Cut
import Entitlement.Text.Word

/-!
# Models and objects

A model names a type of objects by an application and a name inside it, both words in lower case,
written `app.name`. An object is one instance of a model, told apart by its key.
-/

namespace Entitlement

open Text

/-- Reads a part of a model, white space around it and capitals aside. -/
def readWord (part : Part) (s : String) : Except Malformed { t : String // IsLowerWord t } :=
  let t := trim s
  if filled : t = "" then .error (.emptyPart part)
  else if plain : t.toList.all isWordChar then
    .ok ⟨lower t, isLowerWord_lower ⟨filled, plain⟩⟩
  else .error (.oddPart part t)

/-- The name of a type of objects. -/
structure Model where
  app : String
  name : String
  app_word : IsLowerWord app
  name_word : IsLowerWord name
deriving DecidableEq

namespace Model

instance : Ord Model := ⟨compareLex (compareOn (·.app)) (compareOn (·.name))⟩
instance : Std.TransOrd Model := inferInstanceAs
  (Std.TransCmp (compareLex (compareOn fun m : Model => m.app) (compareOn (·.name))))
instance : Std.LawfulEqOrd Model := lawful_lex fun a b app name => by
  cases a; cases b; cases app; cases name; rfl

def toText (m : Model) : String := m.app ++ "." ++ m.name

/-- The model with the given parts, white space around them and capitals aside. -/
def of? (app name : String) : Except Malformed Model := do
  let app ← readWord .appLabel app
  let name ← readWord .modelName name
  return ⟨app, name, app.property, name.property⟩

/-- Reads the written form, cut at its first dot. -/
def parse (s : String) : Except Malformed Model :=
  match cut '.' s with
  | some (app, name) => of? app name
  | none => .error (.modelForm s)

end Model

structure Object where
  model : Model
  key : String
deriving DecidableEq

namespace Object

instance : Ord Object := ⟨compareLex (compareOn (·.model)) (compareOn (·.key))⟩
instance : Std.TransOrd Object := inferInstanceAs
  (Std.TransCmp (compareLex (compareOn fun o : Object => o.model) (compareOn (·.key))))
instance : Std.LawfulEqOrd Object := lawful_lex fun a b model key => by
  cases a; cases b; cases model; cases key; rfl

def toText (o : Object) : String := o.model.toText ++ ":" ++ o.key

/-- The object of the model with a key that is not blank; the key is kept as it stands. -/
def of? (model : Model) (key : String) : Except Malformed Object :=
  if allBlank key then .error (.blankKey model.toText) else .ok ⟨model, key⟩

/-- Reads an object from the written form of its model and its key. -/
def parse (model key : String) : Except Malformed Object := do of? (← Model.parse model) key

end Object

end Entitlement
