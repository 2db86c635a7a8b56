import BasicScript.Failure
import BasicScript.Value.Key
import BasicScript.Value.Operator

/-!
# Indices and ranges

`Value.itemAt` reads an item of an array, a character of a text or a field of a map; where there is
none it gives the empty value.  `Value.range` lists all integers or all characters between two bounds.
-/

namespace BasicScript.Value

/-- The largest count that the language's memory knows. -/
def maxCount : Nat := 0xFFFFFFFFFFFFFFFF

/-- The place that an index denotes: a number that is not negative, without its fraction. -/
def position? : Value → Option Nat
  | int n => if 0 ≤ n.toInt then some n.toInt.toNat else none
  | float x => if 0.0 ≤ x && Double.isFinite x then some x.toUInt64.toNat else none
  | _ => none

/-- A text of one character. -/
def character (c : Char) : Value :=
  str (String.singleton c)

/-- What stands in a value at an index, or the empty value. -/
def itemAt (target index : Value) : Value :=
  match target with
  | array items => ((position? index).bind (items[·]?)).getD nil
  | str s => ((position? index).bind (s.toList[·]?)).elim nil character
  | map fields => (lookup? fields index.toText).getD nil
  | _ => nil

/-- The integers from `a` to `b`, upward or downward. -/
def intsBetween (a b : Int) : List Int :=
  (List.range ((a - b).natAbs + 1)).map fun (i : Nat) => if a ≤ b then a + i else a - i

/-- The characters from `a` to `b`, where `a` is not above `b`.  Code points that are no characters
are left out. -/
def charsUpward (a b : Char) : List Char :=
  (List.range' a.toNat (b.toNat + 1 - a.toNat)).filterMap fun n =>
    if n.isValidChar then some (Char.ofNat n) else none

/-- The characters from `a` to `b`, upward or downward. -/
def charsBetween (a b : Char) : List Char :=
  if a ≤ b then charsUpward a b else (charsUpward b a).reverse

/-- The array of all integers between two numbers or all characters between two characters, both
included.  Only the integers are held to the limit `max`. -/
def range (first last : Value) (max : Nat) : Except Failure Value :=
  match first, last with
  | str s, str t =>
    match s.toList, t.toList with
    | [a], [b] => .ok (array ((charsBetween a b).map character))
    | _, _ => .error (.typeError "single-character range bounds" "STRING")
  | first, last => do
    let a := (← first.truncated).toInt
    let b := (← last.truncated).toInt
    let count := min ((a - b).natAbs + 1) maxCount
    if max < count then .error (.allocationTooLarge "Range" [a, b] count)
    else return array ((intsBetween a b).map fun n => int (Int64.ofInt n))

end BasicScript.Value
