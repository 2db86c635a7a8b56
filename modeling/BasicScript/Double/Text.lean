import BasicScript.Double.Shortest

/-!
# Decimal notation

How a decimal is laid out as text: with a point at its place, or with one digit before the point
and an exponent.
-/

namespace BasicScript.Double

/-- The decimal digits of a natural number. -/
def digitChars (n : Nat) : List Char :=
  Nat.toDigits 10 n

/-- The digits of a decimal with the point at its place, with no point if there is no fraction. -/
def Decimal.positional (d : Decimal) : List Char :=
  let ds := digitChars d.digits
  if 0 ≤ d.exponent then ds ++ List.replicate d.exponent.toNat '0'
  else
    let places := (-d.exponent).toNat
    if places < ds.length then ds.take (ds.length - places) ++ '.' :: ds.drop (ds.length - places)
    else '0' :: '.' :: (List.replicate (places - ds.length) '0' ++ ds)

/-- One digit before the point, the others behind it, and the exponent with its sign. -/
def Decimal.scientific (d : Decimal) : List Char :=
  let ds := digitChars d.digits
  let exponent := d.exponent + ds.length - 1
  let mantissa := match ds with
    | c :: c' :: cs => c :: '.' :: c' :: cs
    | cs => cs
  let sign := if 0 ≤ exponent then '+' else '-'
  mantissa ++ 'e' :: sign :: digitChars exponent.natAbs

/-- The text in which a program sees a double: whole numbers below `10 ^ 15` as integers (so that
negative zero is `0`), all others by their shortest decimal, never with an exponent. -/
def text (x : Float) : String :=
  match view x with
  | .nan => "NaN"
  | .infinite negative => if negative then "-inf" else "inf"
  | .finite negative m e =>
    let d := shortest .up m e
    let sign := if negative && m != 0 then ['-'] else []
    String.ofList (sign ++ d.positional)

end BasicScript.Double
