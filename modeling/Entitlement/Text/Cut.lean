/-!
# Cutting texts at a separator

`cut` takes a text apart at the first separator, `split` at every one, and `join` puts pieces
together again. `cutChars_eq_some_iff` says that the halves of a cut make up the text and that the
first half holds no separator.
-/

namespace Entitlement.Text

/-- What stands before and after the first `sep`, if there is one. -/
def cutChars (sep : Char) : List Char → Option (List Char × List Char)
  | [] => none
  | c :: rest =>
    if c = sep then some ([], rest)
    else (cutChars sep rest).map fun halves => (c :: halves.1, halves.2)

def cut (sep : Char) (s : String) : Option (String × String) :=
  (cutChars sep s.toList).map fun halves => (String.ofList halves.1, String.ofList halves.2)

/-- The pieces between the separators, one more than there are separators. -/
def splitChars (sep : Char) : List Char → List (List Char)
  | [] => [[]]
  | c :: rest =>
    if c = sep then [] :: splitChars sep rest
    else
      match splitChars sep rest with
      | [] => [[c]]
      | piece :: pieces => (c :: piece) :: pieces

def split (sep : Char) (s : String) : List String := (splitChars sep s.toList).map String.ofList

/-- The pieces with `sep` between each two. -/
def join (sep : String) : List String → String
  | [] => ""
  | [piece] => piece
  | piece :: next :: rest => piece ++ sep ++ join sep (next :: rest)

/-- The first half of a cut holds no separator, and the halves make up the text. -/
theorem cutChars_eq_some_iff {sep : Char} {cs before after : List Char} :
    cutChars sep cs = some (before, after) ↔ cs = before ++ sep :: after ∧ sep ∉ before := by
  induction cs generalizing before with
  | nil => simp [cutChars]
  | cons c rest ih =>
    by_cases h : c = sep
    · subst h
      cases before with
      | nil => simp [cutChars]
      | cons b bs =>
        simp only [cutChars, if_pos, Option.some.injEq, Prod.mk.injEq, List.cons_append,
          List.cons.injEq, List.mem_cons, not_or]
        grind
    · cases before with
      | nil =>
        simp only [cutChars, if_neg h, Option.map_eq_some_iff, Prod.mk.injEq, List.nil_append,
          List.cons.injEq, List.not_mem_nil]
        grind
      | cons b bs =>
        simp only [cutChars, if_neg h, Option.map_eq_some_iff, Prod.mk.injEq, List.cons.injEq,
          Prod.exists, List.cons_append, List.mem_cons, not_or]
        constructor
        · rintro ⟨p, q, found, ⟨rfl, rfl⟩, rfl⟩
          have := ih.mp found
          exact ⟨⟨rfl, this.1⟩, fun same => h same.symm, this.2⟩
        · rintro ⟨⟨rfl, eq⟩, _, free⟩
          exact ⟨bs, after, ih.mpr ⟨eq, free⟩, ⟨rfl, rfl⟩, rfl⟩

theorem splitChars_ne_nil (sep : Char) (cs : List Char) : splitChars sep cs ≠ [] := by
  cases cs with
  | nil => simp [splitChars]
  | cons c rest =>
    simp only [splitChars]
    split
    · simp
    · split <;> simp

end Entitlement.Text
