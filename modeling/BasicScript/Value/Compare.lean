import BasicScript.Value.Key
import BasicScript.Syntax.Operator

/-!
# Comparing values

Numbers compare as numbers.  A text compares with a number or a truth value by the text of that
value.  Two arrays or two maps are equal or not comparable.  All other values of different kinds are
ordered by their kinds.
-/

namespace BasicScript.Value

/-- The order of two doubles, if neither is `NaN`. -/
def compareFloat? (x y : Float) : Option Ordering :=
  if x < y then some .lt
  else if x == y then some .eq
  else if y < x then some .gt
  else none

/-- The order of two texts by their code points. -/
def compareText (s t : String) : Ordering :=
  if s < t then .lt else if s = t then .eq else .gt

/-- The place of a value's kind among the kinds. -/
def rank : Value → Nat
  | nil => 0
  | bool _ => 1
  | int _ | float _ => 2
  | str _ => 3
  | array _ => 4
  | map _ => 5

/-- A value that is compared with a text by its own text. -/
def isPlain : Value → Bool
  | int _ | float _ | bool _ => true
  | _ => false

/-- The order of two truth values. -/
def compareBool : Bool → Bool → Ordering
  | false, true => .lt
  | true, false => .gt
  | _, _ => .eq

/-- How two values compare, if they do. -/
def compare? (a b : Value) : Option Ordering :=
  match a, b with
  | int m, int n => some (compare m.toInt n.toInt)
  | int m, float y => compareFloat? (Double.ofInt m.toInt) y
  | float x, int n => compareFloat? x (Double.ofInt n.toInt)
  | float x, float y => compareFloat? x y
  | str s, str t => some (compareText s t)
  | str s, b => if b.isPlain then some (compareText s b.toText) else some (compare 3 b.rank)
  | a, str t => if a.isPlain then some (compareText a.toText t) else some (compare a.rank 3)
  | bool p, bool q => some (compareBool p q)
  | nil, nil => some .eq
  | array as, array bs => if sameItems as bs then some .eq else none
  | map fs, map gs => if sameFields fs gs then some .eq else none
  | a, b => some (compare a.rank b.rank)

/-- What a comparison makes of an order; values that do not compare are only unequal. -/
def holds : BinaryOp → Option Ordering → Bool
  | .ne, none => true
  | _, none => false
  | .eq, some o => o == .eq
  | .ne, some o => o != .eq
  | .lt, some o => o == .lt
  | .le, some o => o != .gt
  | .gt, some o => o == .gt
  | .ge, some o => o != .lt
  | _, _ => false

/-- Equality as a program sees it. -/
def equals (a b : Value) : Bool :=
  a.compare? b == some .eq

/-- A pattern of a MATCH fits a value: it equals the value, is a range around it, or an array that
has it. -/
def fits (subject pattern : Value) : Bool :=
  equals subject pattern ||
    match pattern with
    | map fields =>
      pattern.tag? == some "Range" &&
        match lookup? fields "START", lookup? fields "END" with
        | some first, some last =>
          holds .ge (compare? subject first) && holds .le (compare? subject last)
        | _, _ => false
    | array items => items.any (equals subject)
    | _ => false

/-- A value is of a type that a function may be declared to return. -/
def isOfType (v : Value) (type : String) : Bool :=
  match type, v with
  | "INTEGER", v | "INT", v | "LONG", v => v.kindName == "INTEGER"
  | "DOUBLE", v | "SINGLE", v | "FLOAT", v | "NUMBER", v => v.isNumeric
  | "STRING", v => v.kindName == "STRING"
  | "BOOLEAN", v | "BOOL", v => v.kindName == "BOOLEAN"
  | "ARRAY", v => v.kindName == "ARRAY"
  | "MAP", v | "OBJECT", v => v.kindName == "MAP"
  | "ANY", _ | "VARIANT", _ => true
  | type, v => v.isNil || v.tag?.any (Text.eqAsciiCase · type)

end BasicScript.Value
