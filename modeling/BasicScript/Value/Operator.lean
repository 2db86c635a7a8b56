import BasicScript.Failure
import BasicScript.Value.Compare
import BasicScript.Word

/-!
# Operators on values

Integer arithmetic is exact: where a sum, difference, product, power or negation does not fit 64
bits the result is a double.  `+` joins texts.  The logical operators work on truthiness and always
take both operands.
-/

namespace BasicScript.Value

/-- A number as a double. -/
def number (v : Value) : Except Failure Float :=
  match v.toFloat? with
  | some x => .ok x
  | none => .error (.typeError "number" v.kindName)

/-- A number without its fraction, at most the largest and at least the smallest integer. -/
def truncated : Value → Except Failure Int64
  | int n => .ok n
  | float x => .ok x.toInt64
  | v => .error (.typeError "number" v.kindName)

/-- The exact power of an integer, if the exponent is below `2 ^ 32` and not negative and the power
fits.  For the bases -1, 0 and 1 only the parity of a large exponent matters, and all other bases
outgrow 64 bits with an exponent of 64. -/
def intPow? (base exponent : Int) : Option Int64 :=
  if exponent < 0 ∨ 0x100000000 ≤ exponent then none
  else
    let e := exponent.toNat
    let e := if base.natAbs ≤ 1 then min e (2 + e % 2) else e
    if 64 ≤ e then none else Word.ofInt? (base.pow e)

/-- An operation on two numbers: exact on integers where the result fits, and on doubles
otherwise. -/
def arithmetic (exact : Int → Int → Int) (rounded : Float → Float → Float) (a b : Value) :
    Except Failure Value :=
  let inDoubles : Except Failure Value := do
    let x ← a.number
    let y ← b.number
    return float (rounded x y)
  match a, b with
  | int m, int n =>
    match Word.ofInt? (exact m.toInt n.toInt) with
    | some r => .ok (int r)
    | none => inDoubles
  | _, _ => inDoubles

/-- The value of an operator on one operand. -/
def unary : UnaryOp → Value → Except Failure Value
  | .not, v => .ok (bool !v.isTruthy)
  | .neg, int n =>
    match Word.ofInt? (-n.toInt) with
    | some r => .ok (int r)
    | none => .ok (float (-Double.ofInt n.toInt))
  | .neg, float x => .ok (float (-x))
  | .plus, int n => .ok (int n)
  | .plus, float x => .ok (float x)
  | _, v => .error (.typeError "number" v.kindName)

/-- The sum of two numbers, or two texts joined. -/
def add : Value → Value → Except Failure Value
  | str s, b => .ok (str (s ++ b.toText))
  | a, str t => .ok (str (a.toText ++ t))
  | a, b => arithmetic (· + ·) (· + ·) a b

/-- The quotient of two numbers without their fractions, truncated. -/
def intDiv (a b : Value) : Except Failure Value := do
  let m ← a.truncated
  let n ← b.truncated
  if n == 0 then .error .divisionByZero else return int (m / n)

/-- The remainder of a truncated division. -/
def mod : Value → Value → Except Failure Value
  | int m, int n => if n == 0 then .error .moduloByZero else .ok (int (m % n))
  | a, b => do
    let x ← a.number
    let y ← b.number
    if y == 0.0 then .error .moduloByZero else return float (Double.remainder x y)

/-- A power. -/
def pow (a b : Value) : Except Failure Value :=
  let inDoubles : Except Failure Value := do
    let x ← a.number
    let y ← b.number
    return float (x.pow y)
  match a, b with
  | int m, int n =>
    match intPow? m.toInt n.toInt with
    | some r => .ok (int r)
    | none => inDoubles
  | _, _ => inDoubles

/-- The value of an operator on two operands. -/
def binary (op : BinaryOp) (a b : Value) : Except Failure Value :=
  match op with
  | .add => add a b
  | .sub => arithmetic (· - ·) (· - ·) a b
  | .mul => arithmetic (· * ·) (· * ·) a b
  | .div => do
    let x ← a.number
    let y ← b.number
    return float (x / y)
  | .intDiv => intDiv a b
  | .mod => mod a b
  | .pow => pow a b
  | .and => .ok (bool (a.isTruthy && b.isTruthy))
  | .or => .ok (bool (a.isTruthy || b.isTruthy))
  | .xor => .ok (bool (a.isTruthy != b.isTruthy))
  | op => .ok (bool (holds op (compare? a b)))

end BasicScript.Value
