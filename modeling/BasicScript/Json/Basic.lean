import BasicScript.Double.Reading
import BasicScript.Word

/-!
# JSON trees

A JSON text as a tree that keeps what its readers can tell apart: integers and other numbers, the
members of an object in their order with repeated names, and texts whose escapes spell no character.
-/

namespace BasicScript

/-- A number as it is written.  A number with a point or an exponent is kept as a decimal without
zeros at the end of its digits. -/
inductive Numeral where
  | integer (negative : Bool) (magnitude : Nat)
  | decimal (negative : Bool) (magnitude : Double.Decimal)
deriving DecidableEq, Repr

namespace Numeral

/-- The integer that is written, if it has 64 bits.  A negative zero is no integer. -/
def toInt64? : Numeral → Option Int64
  | integer negative n => if negative && n == 0 then none else Word.ofSign? negative n
  | decimal _ _ => none

/-- Sign and decimal of a numeral. -/
def toDecimal : Numeral → Bool × Double.Decimal
  | integer negative n => (negative, ⟨n, 0⟩)
  | decimal negative d => (negative, d)

/-- The nearest double, unless the number is too large for one. -/
def toFloat? (n : Numeral) : Option Float :=
  let (negative, d) := n.toDecimal
  let bits := d.nearestBits
  if bits = Double.infinityBits then none else some (Double.ofSignBits negative bits)

/-- The numeral of an integer. -/
def ofInt (n : Int) : Numeral :=
  integer (n < 0) n.natAbs

/-- The numeral of a finite double: the shortest decimal that reads back, a tie to the even digit.
What is not finite has no numeral. -/
def ofFloat? (x : Float) : Option Numeral :=
  match Double.view x with
  | .finite negative m e => some (decimal negative (Double.shortest .even m e))
  | _ => none

end Numeral

/-- A text in a JSON document, or nothing where an escape stands for half a character. -/
abbrev JsonText := Option String

/-- A JSON document. -/
inductive Json where
  | null
  | bool (b : Bool)
  | num (n : Numeral)
  | str (s : JsonText)
  | arr (items : List Json)
  | obj (members : List (JsonText × Json))
deriving Inhabited

namespace Json

/-- A text. -/
def text (s : String) : Json := str (some s)

/-- An integer. -/
def int (n : Int) : Json := num (.ofInt n)

/-- An object with the given members. -/
def object (members : List (String × Json)) : Json :=
  obj (members.map fun (k, v) => (some k, v))

end Json

end BasicScript
