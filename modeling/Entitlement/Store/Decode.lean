import Entitlement.Failure

/-!
# Reading stored texts

Objects and permissions are stored as texts and read back by parsing, so that what a store holds may
turn out not to be one.
-/

namespace Entitlement

/-- Reads an object from its stored model and key. -/
def decodeObject (model key : String) : Except Failure Object :=
  match Model.parse model with
  | .error cause => .error (.undecodableModel model cause)
  | .ok decoded => (Object.of? decoded key).mapError (.undecodableObject model key)

def decodePermission (permission : String) : Except Failure Permission :=
  (Permission.parse permission).mapError (.undecodablePermission permission)

/-- Reads stored permissions into a set; the first that is none decides the failure. -/
def decodePermissions (permissions : List String) : Except Failure (SortedSet Permission) :=
  (permissions.mapM decodePermission).map .ofList

end Entitlement
