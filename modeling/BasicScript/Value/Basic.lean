import BasicScript.Double.Text
import BasicScript.Table
import BasicScript.Text.Case

/-!
# Values

What a program computes with: the empty value, truth values, 64-bit integers, doubles, texts, arrays
and maps.  An object of a type, a lambda, a bound method and a caught failure are all maps that say
what they are under the key `_type`.

* `Value.isTruthy` decides conditions, `Value.tag?` reads off what a map is.
* `Value.display` is the text of a value, `Value.toText` the same with nothing for the empty value.
-/

namespace BasicScript

/-- A value of the language. -/
inductive Value where
  | nil
  | bool (b : Bool)
  | int (n : Int64)
  | float (x : Float)
  | str (s : String)
  | array (items : List Value)
  /-- Entries in ascending order of their keys. -/
  | map (fields : List (String × Value))
deriving Inhabited

namespace Value

/-- The key that says what a map is. -/
def typeKey : String := "_type"

/-- What a condition makes of a value. -/
def isTruthy : Value → Bool
  | bool b => b
  | int n => n != 0
  | float x => x != 0.0
  | str s => !s.isEmpty
  | nil | array _ | map _ => false

/-- The empty value. -/
def isNil : Value → Bool
  | nil => true
  | _ => false

/-- Integers and doubles. -/
def isNumeric : Value → Bool
  | int _ | float _ => true
  | _ => false

/-- The name of a value's kind. -/
def kindName : Value → String
  | nil => "NIL"
  | bool _ => "BOOLEAN"
  | int _ => "INTEGER"
  | float _ => "NUMBER"
  | str _ => "STRING"
  | array _ => "ARRAY"
  | map _ => "MAP"

/-- The text under a key of a list of fields. -/
def textField? (fields : Table Value) (key : String) : Option String :=
  match Table.get? fields key with
  | some (str s) => some s
  | _ => none

/-- What a map says it is. -/
def tag? : Value → Option String
  | map fields => textField? fields typeKey
  | _ => none

/-- What a map says it is, or the name of the value's kind. -/
def typeName (v : Value) : String :=
  v.tag?.getD v.kindName

/-- The number as a double. -/
def toFloat? : Value → Option Float
  | float x => some x
  | int n => some (Double.ofInt n.toInt)
  | _ => none

/-- The decimal notation of an integer. -/
def intText (n : Int) : String :=
  String.ofList ((if n < 0 then ['-'] else []) ++ Double.digitChars n.natAbs)

mutual

/-- The text of a value. -/
def display : Value → String
  | nil => "NIL"
  | bool b => if b then "TRUE" else "FALSE"
  | int n => intText n.toInt
  | float x => Double.text x
  | str s => s
  | array items => displayItems "[" true items ++ "]"
  | map fields => displayFields "\x7b" true fields ++ "\x7d"

/-- The text so far with the items behind it; there is a comma before every item but the first. -/
def displayItems (done : String) (first : Bool) : List Value → String
  | [] => done
  | v :: rest => displayItems (done ++ (if first then "" else ", ") ++ display v) false rest

/-- The text so far with the fields behind it. -/
def displayFields (done : String) (first : Bool) : List (String × Value) → String
  | [] => done
  | (k, v) :: rest =>
    displayFields (done ++ (if first then "" else ", ") ++ k ++ ": " ++ display v) false rest

end

/-- The text of a value where it is joined to other text: nothing for the empty value. -/
def toText : Value → String
  | nil => ""
  | v => v.display

/-- A map with one more field, that says what the map is. -/
def tagged (tag : String) (fields : Table Value) : Value :=
  map (Table.insert fields typeKey (str tag))

mutual

/-- Equality of values kind by kind: an integer never equals a double, and doubles are equal as
numbers are. -/
def same : Value → Value → Bool
  | nil, nil => true
  | bool a, bool b => a == b
  | int a, int b => a == b
  | float x, float y => x == y
  | str s, str t => s == t
  | array as, array bs => sameItems as bs
  | map fs, map gs => sameFields fs gs
  | _, _ => false

/-- Equality of lists of values. -/
def sameItems : List Value → List Value → Bool
  | [], [] => true
  | a :: as, b :: bs => same a b && sameItems as bs
  | _, _ => false

/-- Equality of lists of fields. -/
def sameFields : List (String × Value) → List (String × Value) → Bool
  | [], [] => true
  | (k, a) :: as, (l, b) :: bs => k == l && same a b && sameFields as bs
  | _, _ => false

end

end Value

end BasicScript
