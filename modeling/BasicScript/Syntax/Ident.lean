import BasicScript.Text.Case

/-!
# Identifiers

A name in a program means the same in every spelling, so it is kept in upper case from the start.
-/

namespace BasicScript

/-- A name in its canonical spelling: the upper case of some text. -/
structure Ident where
  name : String
  canonical : ∃ spelling, name = Text.upper spelling
deriving DecidableEq

namespace Ident

/-- The identifier that a text spells. -/
def ofString (spelling : String) : Ident :=
  ⟨Text.upper spelling, spelling, rfl⟩

/-- Two identifiers are equal if their names are. -/
@[ext]
theorem ext {i j : Ident} (h : i.name = j.name) : i = j := by
  cases i; cases j; cases h; rfl

end Ident

end BasicScript
