import BasicScript.Json.Basic

/-!
# The tokens of a JSON text

Strict JSON: no comments, no control characters inside texts, no leading zeros.  `nextToken?` takes
one token off the front of a text that does not start with a blank.
-/

namespace BasicScript.Json

/-- A token. -/
inductive Token where
  | openArr
  | closeArr
  | openObj
  | closeObj
  | colon
  | comma
  | null
  | bool (b : Bool)
  | num (n : Numeral)
  | str (s : JsonText)

/-- The blanks between tokens. -/
def isSpace (c : Char) : Bool :=
  c == ' ' || c == '\n' || c == '\t' || c == '\r'

/-- The value of a hexadecimal digit. -/
def hexDigit? (c : Char) : Option Nat :=
  if '0' ≤ c ∧ c ≤ '9' then some (c.toNat - '0'.toNat)
  else if 'a' ≤ c ∧ c ≤ 'f' then some (c.toNat - 'a'.toNat + 10)
  else if 'A' ≤ c ∧ c ≤ 'F' then some (c.toNat - 'A'.toNat + 10)
  else none

/-- The value of four hexadecimal digits. -/
def hexUnit? (a b c d : Char) : Option Nat := do
  let a ← hexDigit? a
  let b ← hexDigit? b
  let c ← hexDigit? c
  let d ← hexDigit? d
  return ((a * 16 + b) * 16 + c) * 16 + d

/-- The first half of a character written as two units. -/
def isHighHalf (n : Nat) : Bool := 0xD800 ≤ n && n ≤ 0xDBFF

/-- The second half of a character written as two units. -/
def isLowHalf (n : Nat) : Bool := 0xDC00 ≤ n && n ≤ 0xDFFF

/-- The character of two halves. -/
def joinHalves (high low : Nat) : Char :=
  Char.ofNat (0x10000 + (high - 0xD800) * 0x400 + (low - 0xDC00))

/-- The character that a one-letter escape stands for. -/
def simpleEscape? : Char → Option Char
  | '"' => some '"'
  | '\\' => some '\\'
  | '/' => some '/'
  | 'b' => some '\x08'
  | 'f' => some '\x0c'
  | 'n' => some '\n'
  | 'r' => some '\r'
  | 't' => some '\t'
  | _ => none

/-- A text that has been read in part. -/
structure PartText where
  /-- The characters so far, the last one first. -/
  done : List Char
  /-- No half character stands alone so far. -/
  whole : Bool
  /-- The first half of a character, when the second half must come next. -/
  half : Option Nat

namespace PartText

/-- Nothing read yet. -/
def empty : PartText := ⟨[], true, none⟩

/-- Adds a character. -/
def push (p : PartText) (c : Char) : PartText :=
  ⟨c :: p.done, p.whole && p.half.isNone, none⟩

/-- Adds a unit that was written as four hexadecimal digits. -/
def pushUnit (p : PartText) (n : Nat) : PartText :=
  if isLowHalf n then
    match p.half with
    | some h => ⟨joinHalves h n :: p.done, p.whole, none⟩
    | none => ⟨p.done, false, none⟩
  else if isHighHalf n then ⟨p.done, p.whole && p.half.isNone, some n⟩
  else p.push (Char.ofNat n)

/-- The text, if every character is whole. -/
def text (p : PartText) : JsonText :=
  if p.whole && p.half.isNone then some (String.ofList p.done.reverse) else none

end PartText

/-- The rest of a text after its opening quote. -/
def scanText (p : PartText) : List Char → Option (JsonText × List Char)
  | [] => none
  | '"' :: rest => some (p.text, rest)
  | '\\' :: 'u' :: a :: b :: c :: d :: rest =>
    match hexUnit? a b c d with
    | some n => scanText (p.pushUnit n) rest
    | none => none
  | '\\' :: c :: rest =>
    match simpleEscape? c with
    | some e => scanText (p.push e) rest
    | none => none
  | c :: rest => if c.toNat < 0x20 then none else scanText (p.push c) rest

/-- The digits of an exponent after the letter `e`. -/
def scanExponent? (cs : List Char) : Option (Int × List Char) :=
  let (negative, cs) := Double.spanSign cs
  let (digits, rest) := Double.spanDigits cs
  if digits.isEmpty then none
  else
    let n := Double.natOfDigits digits
    some (if negative then -(n : Int) else n, rest)

/-- The decimal with whole digits and fraction digits, without zeros at its end. -/
def decimalOf (whole fraction : List Char) (exponent : Int) : Double.Decimal :=
  let digits := Double.natOfDigits (whole ++ fraction)
  if digits = 0 then ⟨0, 0⟩
  else (Double.Decimal.mk digits (exponent - fraction.length)).dropZeros
    (whole.length + fraction.length)

/-- The fraction after a point: at least one digit. -/
def scanFraction? : List Char → Option (List Char × List Char)
  | '.' :: cs =>
    let (digits, rest) := Double.spanDigits cs
    if digits.isEmpty then none else some (digits, rest)
  | cs => some ([], cs)

/-- The exponent of a number, if there is one. -/
def scanScale? : List Char → Option (Option Int × List Char)
  | c :: cs =>
    if c == 'e' || c == 'E' then (scanExponent? cs).map fun (e, rest) => (some e, rest)
    else some (none, c :: cs)
  | [] => some (none, [])

/-- A number without its minus sign. -/
def scanMagnitude? (negative : Bool) (cs : List Char) : Option (Numeral × List Char) := do
  let (whole, rest) := Double.spanDigits cs
  if whole.isEmpty || (whole.head? == some '0' && 1 < whole.length) then none
  else
    let (fraction, rest) ← scanFraction? rest
    let (scale, rest) ← scanScale? rest
    if fraction.isEmpty && scale.isNone then
      return (.integer negative (Double.natOfDigits whole), rest)
    else
      return (.decimal negative (decimalOf whole fraction (scale.getD 0)), rest)

/-- A number. -/
def scanNumber? : List Char → Option (Numeral × List Char)
  | '-' :: cs => scanMagnitude? true cs
  | cs => scanMagnitude? false cs

/-- The first token of a text that does not start with a blank, and the text behind it. -/
def nextToken? : List Char → Option (Token × List Char)
  | '[' :: rest => some (.openArr, rest)
  | ']' :: rest => some (.closeArr, rest)
  | '{' :: rest => some (.openObj, rest)
  | '}' :: rest => some (.closeObj, rest)
  | ':' :: rest => some (.colon, rest)
  | ',' :: rest => some (.comma, rest)
  | '"' :: rest => (scanText .empty rest).map fun (s, rest) => (.str s, rest)
  | 'n' :: 'u' :: 'l' :: 'l' :: rest => some (.null, rest)
  | 't' :: 'r' :: 'u' :: 'e' :: rest => some (.bool true, rest)
  | 'f' :: 'a' :: 'l' :: 's' :: 'e' :: rest => some (.bool false, rest)
  | cs => (scanNumber? cs).map fun (n, rest) => (.num n, rest)

end BasicScript.Json
