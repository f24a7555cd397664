/-!
# What can be wrong with a text

The causes for which a text is refused as an identifier, a label or the like, and their wording.
-/

namespace Entitlement

/-- The parts that identifiers are made of. -/
inductive Part where
  | permissionSpace
  | permissionName
  | appLabel
  | modelName
deriving DecidableEq

/-- The part as messages call it. -/
def Part.toText : Part → String
  | .permissionSpace => "permission namespace"
  | .permissionName => "permission name"
  | .appLabel => "app label"
  | .modelName => "model name"

/-- Why a text is refused. -/
inductive Malformed where
  /-- The part has nothing but white space in it. -/
  | emptyPart (part : Part)
  /-- The part has a dot or white space inside. -/
  | dottedPart (part : Part) (text : String)
  /-- The part has a character that words do not have. -/
  | oddPart (part : Part) (text : String)
  /-- A permission without a dot. -/
  | permissionForm (text : String)
  /-- A model without a dot. -/
  | modelForm (text : String)
  /-- A path with a hop that is no word. -/
  | badHop (path hop : String)
  /-- An object of the model with a blank key. -/
  | blankKey (model : String)
  /-- A name or label with nothing but white space in it. -/
  | blank
  /-- A permission space with a blank label. -/
  | blankSpaceLabel (space : String)
  /-- A permission with a blank label. -/
  | blankPermissionLabel (permission : String)
  /-- A text that names no audited action. -/
  | unknownAction (text : String)
deriving DecidableEq

def Malformed.toText : Malformed → String
  | .emptyPart part => part.toText ++ " must not be empty"
  | .dottedPart part text => part.toText ++ " '" ++ text ++ "' must not contain dots or whitespace"
  | .oddPart part text =>
    part.toText ++ " '" ++ text ++ "' may only contain letters, digits and underscores"
  | .permissionForm text => "permission value '" ++ text ++ "' must have the form 'namespace.name'"
  | .modelForm text => "model type '" ++ text ++ "' must have the form 'app_label.model'"
  | .badHop path hop => "relation path '" ++ path ++ "' contains an invalid segment '" ++ hop ++ "'"
  | .blankKey model => "object id for '" ++ model ++ "' must not be empty"
  | .blank => "value must not be empty or whitespace"
  | .blankSpaceLabel space => "permission namespace '" ++ space ++ "' requires a label"
  | .blankPermissionLabel permission => "permission '" ++ permission ++ "' requires a label"
  | .unknownAction text => "unknown audit action value '" ++ text ++ "'"

end Entitlement
