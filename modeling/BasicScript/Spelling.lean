import BasicScript.Text.Case

/-!
# Similar names

Suggestions for a member that was not found: names that contain the one asked for or are contained
in it, and names that agree with it in half of their places.
-/

namespace BasicScript.Spelling

/-- The most names that are suggested. -/
def maxSuggestions : Nat := 5

/-- The first list is a run of neighbours inside the second. -/
def isInside (short : List Char) : List Char → Bool
  | [] => short.isEmpty
  | c :: cs => short.isPrefixOf (c :: cs) || isInside short cs

/-- A candidate could be meant by a name. -/
def isSimilar (name candidate : String) : Bool :=
  let a := (Text.upper name).toList
  let b := (Text.upper candidate).toList
  let (short, long) := if a.length ≤ b.length then (a, b) else (b, a)
  !short.isEmpty &&
    (isInside short long ||
      short.length ≤ 2 * ((a.zip b).filter fun (x, y) => x == y).length)

/-- The first candidates that could be meant by a name. -/
def suggest (name : String) (candidates : List String) : List String :=
  (candidates.filter (isSimilar name)).take maxSuggestions

/-- The note about a member that was not found. -/
def memberWarning (member type : String) (suggestions : List String) : String :=
  let note := "Warning: Property '" ++ member ++ "' not found on " ++ type
  if suggestions.isEmpty then note
  else note ++ "\n  Did you mean: " ++ String.intercalate ", " suggestions

end BasicScript.Spelling
