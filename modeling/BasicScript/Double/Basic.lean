/-!
# Double-precision numbers as exact fractions

A finite double is a natural number times a power of two.  This module reads that form off the bits
of a double, finds the double nearest to a fraction of natural numbers, and builds from the two the
remainder of a division of doubles.

* `view` splits a double into sign, mantissa and exponent.
* `nearestBits` rounds a fraction to the nearest double, a half to the even one; `ofInt` rounds an
  integer.
* `remainder` is the exact remainder, with the sign of the dividend.
-/

namespace BasicScript.Double

/-- What a double stands for. -/
inductive View where
  | nan
  | infinite (negative : Bool)
  /-- The number `mantissa * 2 ^ exponent`, negated if `negative`. -/
  | finite (negative : Bool) (mantissa : Nat) (exponent : Int)

/-- The least exponent of a double. -/
def minExponent : Int := -1074

/-- The place value of the sign among the bits of a double. -/
def signBit : Nat := 0x8000000000000000

/-- The place value of the leading one of a mantissa, which the bits of a double do not show. -/
def hiddenBit : Nat := 0x10000000000000

/-- Sign, mantissa and exponent of the double with bits `n`. -/
def viewBits (n : Nat) : View :=
  let negative := n / signBit % 2 == 1
  let field : Nat := n / hiddenBit % 2048
  let fraction := n % hiddenBit
  if field = 2047 then (if fraction = 0 then .infinite negative else .nan)
  else if field = 0 then .finite negative fraction minExponent
  else .finite negative (hiddenBit + fraction) (minExponent + (field : Int) - 1)

/-- What the double `x` stands for. -/
def view (x : Float) : View :=
  viewBits x.toBits.toNat

/-- The bits of positive infinity. -/
def infinityBits : Nat := 2047 * hiddenBit

/-- The quotient `a / b` rounded to the nearest natural number, a half to the even one. -/
def divRoundEven (a b : Nat) : Nat :=
  let q := a / b
  let twice := 2 * (a % b)
  if twice < b then q
  else if b < twice then q + 1
  else if q % 2 = 0 then q else q + 1

/-- The number `a * 2 ^ e / b` as a fraction of natural numbers. -/
def scaleTwo (a b : Nat) (e : Int) : Nat × Nat :=
  if 0 ≤ e then (a <<< e.toNat, b) else (a, b <<< (-e).toNat)

/-- The bits of the double nearest to `a / b`, a half to the even one; what lies beyond the largest
double becomes infinity.  The exponent is chosen so that the quotient has 53 binary digits, or less
where the least exponent stops it. -/
def nearestBits (a b : Nat) : Nat :=
  if a = 0 then 0
  else
    let guess : Int := max ((a.log2 : Int) - b.log2 - 52) minExponent
    let (c, d) := scaleTwo a b (-guess)
    let exponent := if c / d < hiddenBit then max (guess - 1) minExponent else guess
    let (c, d) := scaleTwo a b (-exponent)
    min ((exponent - minExponent).toNat * hiddenBit + divRoundEven c d) infinityBits

/-- The double of the given sign and magnitude bits. -/
def ofSignBits (negative : Bool) (bits : Nat) : Float :=
  Float.ofBits (UInt64.ofNat (if negative then signBit + bits else bits))

/-- The double nearest to `± a / b`. -/
def nearest (negative : Bool) (a b : Nat) : Float :=
  ofSignBits negative (nearestBits a b)

/-- The double nearest to an integer. -/
def ofInt (n : Int) : Float :=
  nearest (n < 0) n.natAbs 1

/-- A double that is not a number. -/
def notANumber : Float :=
  Float.ofBits 0x7FF8000000000000

/-- Positive or negative infinity. -/
def infinity (negative : Bool) : Float :=
  ofSignBits negative infinityBits

/-- The remainder of `x` divided by `y`, truncated toward zero.  The remainder of two doubles is
again a double, so nothing is rounded; it has the sign of `x`. -/
def remainder (x y : Float) : Float :=
  match view x, view y with
  | .finite negative m e, .finite _ n f =>
    if n = 0 then notANumber
    else
      let low := min e f
      let r := (m <<< (e - low).toNat) % (n <<< (f - low).toNat)
      let (a, b) := scaleTwo r 1 low
      nearest negative a b
  | .finite _ _ _, .infinite _ => x
  | _, _ => notANumber

/-- A number of a finite double, neither infinite nor `NaN`. -/
def isFinite (x : Float) : Bool :=
  match view x with
  | .finite _ _ _ => true
  | _ => false

end BasicScript.Double
