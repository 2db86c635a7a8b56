import BasicScript.Double.Text
import BasicScript.Word

/-!
# Reading numbers

Decimal text to numbers.  An integer has an optional sign and digits, and must fit 64 bits.  A
double has an optional sign and then digits with an optional point and exponent, or one of the words
`inf`, `infinity` and `nan` in any case; it is rounded to the nearest double, and what is too large
becomes infinite.

`readInt?` and `readDouble?` read the whole text or nothing.
-/

namespace BasicScript.Double

/-- The number that a list of decimal digits denotes. -/
def natOfDigits (cs : List Char) : Nat :=
  cs.foldl (fun n c => 10 * n + (c.toNat - '0'.toNat)) 0

/-- The bits of the double nearest to a decimal.  Decimals far outside the range of doubles are
settled by their magnitude alone. -/
def Decimal.nearestBits (d : Decimal) : Nat :=
  let magnitude := d.exponent + (digitChars d.digits).length
  if d.digits = 0 then 0
  else if 310 < magnitude then infinityBits
  else if magnitude < -330 then 0
  else
    let (a, b) := powTen d.exponent
    Double.nearestBits (d.digits * a) b

/-- The longest run of decimal digits at the front, and the rest. -/
def spanDigits (cs : List Char) : List Char × List Char :=
  (cs.takeWhile Char.isDigit, cs.dropWhile Char.isDigit)

/-- An optional sign, and the rest. -/
def spanSign : List Char → Bool × List Char
  | '-' :: cs => (true, cs)
  | '+' :: cs => (false, cs)
  | cs => (false, cs)

/-- The integer that is written, if it fits 64 bits. -/
def readInt? (cs : List Char) : Option Int64 :=
  let (negative, digits) := spanSign cs
  if digits.isEmpty || !digits.all Char.isDigit then none
  else
    Word.ofSign? negative (natOfDigits digits)

/-- The exponent at the end of a number: nothing, or `e` with an integer. -/
def readExponent? : List Char → Option Int
  | [] => some 0
  | c :: cs =>
    let (negative, digits) := spanSign cs
    if (c != 'e' && c != 'E') || digits.isEmpty || !digits.all Char.isDigit then none
    else
      let n := natOfDigits digits
      some (if negative then -(n : Int) else n)

/-- The decimal that digits with an optional point and exponent denote. -/
def readDecimal? (cs : List Char) : Option Decimal :=
  let (whole, rest) := spanDigits cs
  let (fraction, rest) := match rest with
    | '.' :: rest => spanDigits rest
    | rest => ([], rest)
  if whole.isEmpty && fraction.isEmpty then none
  else (readExponent? rest).map fun e => ⟨natOfDigits (whole ++ fraction), e - fraction.length⟩

/-- The double that is written. -/
def readDouble? (cs : List Char) : Option Float :=
  let (negative, body) := spanSign cs
  let word := String.ofList (body.map Char.toLower)
  if word == "inf" || word == "infinity" then some (infinity negative)
  else if word == "nan" then some notANumber
  else (readDecimal? body).map fun d => ofSignBits negative d.nearestBits

end BasicScript.Double
