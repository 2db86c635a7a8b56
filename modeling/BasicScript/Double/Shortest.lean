import BasicScript.Double.Basic

/-!
# The shortest decimal of a double

Of all decimals that read back as a given double, `shortest` takes one with the fewest digits, and
of those the one nearest to the double.  Where two are equally near, the caller says which way the
tie goes.

The decimals that read back are those inside an interval around the double; its ends belong to it
when the mantissa is even.  For one digit, two digits and so on the two neighbours of the double on
the decimal grid are tried, and the first grid with a neighbour inside the interval wins.
-/

namespace BasicScript.Double

/-- The number `digits * 10 ^ exponent`. -/
structure Decimal where
  digits : Nat
  exponent : Int
deriving DecidableEq, Repr

/-- Moves zeros at the end of the digits into the exponent, at most `fuel` of them. -/
def Decimal.dropZeros : Nat → Decimal → Decimal
  | 0, d => d
  | fuel + 1, d =>
    if d.digits ≠ 0 ∧ d.digits % 10 = 0 then dropZeros fuel ⟨d.digits / 10, d.exponent + 1⟩ else d

/-- Where a double is half way between two shortest decimals. -/
inductive Tie where
  | up
  | even

/-- A positive double with the ends of the interval of numbers that round to it, as numerators over
one denominator. -/
structure Neighbourhood where
  low : Nat
  value : Nat
  high : Nat
  denominator : Nat
  /-- The ends round to the double too. -/
  closed : Bool

/-- The neighbourhood of `mantissa * 2 ^ exponent`.  Below a power of two the doubles lie twice as
dense, so there the lower end is nearer. -/
def neighbourhood (mantissa : Nat) (exponent : Int) : Neighbourhood :=
  let below := if mantissa = hiddenBit ∧ minExponent < exponent then 1 else 2
  let scaled (n : Nat) : Nat := (scaleTwo n 1 (exponent - 2)).1
  { low := scaled (4 * mantissa - below)
    value := scaled (4 * mantissa)
    high := scaled (4 * mantissa + 2)
    denominator := (scaleTwo 1 1 (exponent - 2)).2
    closed := mantissa % 2 = 0 }

/-- Numerator and denominator of `10 ^ p`. -/
def powTen (p : Int) : Nat × Nat :=
  if 0 ≤ p then (Nat.pow 10 p.toNat, 1) else (1, Nat.pow 10 (-p).toNat)

/-- The decimal `digits * 10 ^ p` reads back as the double. -/
def Neighbourhood.has (n : Neighbourhood) (digits : Nat) (p : Int) : Bool :=
  let (a, b) := powTen p
  let point := digits * a * n.denominator
  if n.closed then n.low * b ≤ point && point ≤ n.high * b
  else n.low * b < point && point < n.high * b

/-- The neighbours of the double on the grid of multiples of `10 ^ p`, and where between them the
double lies compared with the middle. -/
def Neighbourhood.onGrid (n : Neighbourhood) (p : Int) : Nat × Ordering :=
  let (a, b) := powTen p
  let top := n.value * b
  let bottom := n.denominator * a
  (top / bottom, compare (2 * (top % bottom)) bottom)

/-- The decimal on the grid `10 ^ p` that reads back as the double, the nearer one of two. -/
def Neighbourhood.pick? (n : Neighbourhood) (tie : Tie) (p : Int) : Option Decimal :=
  let (q, side) := n.onGrid p
  match n.has q p, n.has (q + 1) p with
  | true, true =>
    let upward := match side, tie with
      | .lt, _ => false
      | .gt, _ => true
      | .eq, .up => true
      | .eq, .even => q % 2 == 1
    some ⟨if upward then q + 1 else q, p⟩
  | true, false => some ⟨q, p⟩
  | false, true => some ⟨q + 1, p⟩
  | false, false => none

/-- The double is less than `10 ^ k`. -/
def Neighbourhood.isBelow (n : Neighbourhood) (k : Int) : Bool :=
  let (a, b) := powTen k
  n.value * b < a * n.denominator

/-- The least `k` with the double below `10 ^ k`, found near the estimate that the binary exponent
gives. -/
def Neighbourhood.magnitude (n : Neighbourhood) : Int :=
  let guess : Int := ((n.value.log2 : Int) - n.denominator.log2) * 30103 / 100000
  ([guess - 1, guess, guess + 1].find? n.isBelow).getD (guess + 2)

/-- The shortest decimal that reads back as the double `mantissa * 2 ^ exponent`; seventeen digits
are always enough. -/
def shortest (tie : Tie) (mantissa : Nat) (exponent : Int) : Decimal :=
  if mantissa = 0 then ⟨0, 0⟩
  else
    let n := neighbourhood mantissa exponent
    let k := n.magnitude
    let found := (List.range 17).findSome? fun (i : Nat) => n.pick? tie (k - (i : Int) - 1)
    (found.getD ⟨(n.onGrid (k - 17)).1, k - 17⟩).dropZeros 17

end BasicScript.Double
