import Entitlement.Malformed
import Entitlement.Order
import Entitlement.Text.Blank
import Entitlement.Text.Cut
import Entitlement.Text.Word

/-!
# Relation paths

A path is one or more relation names, each a word, followed one after another from an object to the
object whose entries also count for it; written with dots between the names.
-/

namespace Entitlement

open Text

/-- Relation names in the order in which they are followed. -/
structure Path where
  hops : List String
  filled : hops ≠ []
  words : ∀ hop ∈ hops, IsWord hop
deriving DecidableEq

namespace Path

instance : Ord Path := ⟨compareOn (·.hops)⟩
instance : Std.TransOrd Path := inferInstanceAs (Std.TransCmp (compareOn fun p : Path => p.hops))
instance : Std.LawfulEqOrd Path := lawful_on fun a b h => by
  cases a; cases b; cases h; rfl

def toText (p : Path) : String := join "." p.hops

/-- Reads the written form, white space around each name aside. -/
def parse (s : String) : Except Malformed Path :=
  let hops := (split '.' s).map trim
  match found : hops.find? (fun hop => ¬ IsWord hop) with
  | some hop => .error (.badHop s hop)
  | none =>
    .ok {
      hops
      filled := by simp [hops, split, splitChars_ne_nil]
      words := by simpa using found }

end Path

end Entitlement
