import BasicScript.Double.Reading
import BasicScript.Word

/-!
# Configuration

Four settings, each of which may be given on a line `key = value` of a configuration text.  A key is
bare or in quotes, and between double quotes it may hold escapes.  A value is `true`, `false` or an
integer, and `#` starts a comment.  A text with anything else, with an unknown key or with a key
twice is refused.
-/

namespace BasicScript

/-- The settings of an interpreter. -/
structure Config where
  /-- The root scope starts under OPTION EXPLICIT. -/
  strict : Bool := false
  /-- Notes for the person who develops a program are written. -/
  debug : Bool := false
  /-- How many places an array may take. -/
  maxElements : Nat := 50000000
  /-- How deep calls may be nested. -/
  maxDepth : Nat := 10000
deriving DecidableEq, Repr

namespace Config

/-- The value of a setting. -/
inductive Setting where
  | flag (b : Bool)
  | count (n : Int)

/-- Blanks inside a line. -/
def isGap (c : Char) : Bool := c == ' ' || c == '\t'

/-- The digits of a number in some base, single underscores between them put aside. -/
def digits? (isDigit : Char → Bool) : List Char → Option (List Char)
  | [] => none
  | [c] => if isDigit c then some [c] else none
  | c :: '_' :: rest => if isDigit c then (digits? isDigit rest).map (c :: ·) else none
  | c :: rest => if isDigit c then (digits? isDigit rest).map (c :: ·) else none

/-- The value of a digit up to `f`. -/
def digitValue (c : Char) : Nat :=
  if c.isDigit then c.toNat - '0'.toNat else c.toLower.toNat - 'a'.toNat + 10

/-- The number that digits in some base denote. -/
def numberOf (base : Nat) (cs : List Char) : Nat :=
  cs.foldl (fun n c => base * n + digitValue c) 0

/-- A digit in the base 16. -/
def isHexDigit (c : Char) : Bool :=
  c.isDigit || ('a' ≤ c && c ≤ 'f') || ('A' ≤ c && c ≤ 'F')

/-- An integer without a sign. -/
def magnitude? (cs : List Char) : Option Nat := do
  let ds ← digits? Char.isDigit cs
  if ds.head? == some '0' && 1 < ds.length then none else return numberOf 10 ds

/-- An integer of 64 bits. -/
def integer? (cs : List Char) : Option Int := do
  let n : Int ← match cs with
    | '0' :: 'x' :: rest => (digits? isHexDigit rest).map fun ds => (numberOf 16 ds : Int)
    | '0' :: 'o' :: rest =>
      (digits? (fun c => '0' ≤ c && c ≤ '7') rest).map fun ds => (numberOf 8 ds : Int)
    | '0' :: 'b' :: rest =>
      (digits? (fun c => c == '0' || c == '1') rest).map fun ds => (numberOf 2 ds : Int)
    | '-' :: rest => (magnitude? rest).map fun n => -(n : Int)
    | '+' :: rest => (magnitude? rest).map fun n => (n : Int)
    | rest => (magnitude? rest).map fun n => (n : Int)
  (Word.ofInt? n).map Int64.toInt

/-- The value that stands behind an equals sign. -/
def setting? (cs : List Char) : Option Setting :=
  if cs = "true".toList then some (.flag true)
  else if cs = "false".toList then some (.flag false)
  else (integer? cs).map .count

/-- A character of a bare key. -/
def isKeyChar (c : Char) : Bool :=
  c.isAlphanum || c == '_' || c == '-'

/-- A character that may stand for itself in a comment or between quotes: no control characters but
tabs. -/
def isPlainChar (c : Char) : Bool :=
  c == '\t' || (0x20 ≤ c.toNat && c.toNat != 0x7F)

/-- The character that one letter behind a backslash stands for. -/
def letterEscape? : Char → Option Char
  | 'b' => some '\x08'
  | 't' => some '\t'
  | 'n' => some '\n'
  | 'f' => some '\x0c'
  | 'r' => some '\r'
  | '"' => some '"'
  | '\\' => some '\\'
  | _ => none

/-- The character whose number hexadecimal digits give. -/
def charOfHex? (digits : List Char) : Option Char :=
  let n := numberOf 16 digits
  if digits.all isHexDigit && decide n.isValidChar then some (Char.ofNat n) else none

/-- Characters up to a double quote, and what is behind it.  A backslash starts an escape: a letter,
or the number of a character in four or eight digits. -/
def untilQuote? : List Char → Option (List Char × List Char)
  | [] => none
  | '"' :: rest => some ([], rest)
  | '\\' :: 'u' :: a :: b :: c :: d :: rest => do
    let x ← charOfHex? [a, b, c, d]
    let (text, rest) ← untilQuote? rest
    return (x :: text, rest)
  | '\\' :: 'U' :: a :: b :: c :: d :: e :: f :: g :: h :: rest => do
    let x ← charOfHex? [a, b, c, d, e, f, g, h]
    let (text, rest) ← untilQuote? rest
    return (x :: text, rest)
  | '\\' :: c :: rest => do
    let x ← letterEscape? c
    let (text, rest) ← untilQuote? rest
    return (x :: text, rest)
  | c :: rest => do
    let (text, rest) ← untilQuote? rest
    if isPlainChar c && c != '\\' then some (c :: text, rest) else none

/-- Characters up to a single quote, which all stand for themselves, and what is behind it. -/
def untilSingleQuote? : List Char → Option (List Char × List Char)
  | [] => none
  | '\'' :: rest => some ([], rest)
  | c :: rest => do
    let (text, rest) ← untilSingleQuote? rest
    if isPlainChar c then some (c :: text, rest) else none

/-- The key at the front of a line, and what is behind it.  Escapes are read only in double
quotes. -/
def key? : List Char → Option (List Char × List Char)
  | '"' :: rest => untilQuote? rest
  | '\'' :: rest => untilSingleQuote? rest
  | cs =>
    let key := cs.takeWhile isKeyChar
    if key.isEmpty then none else some (key, cs.dropWhile isKeyChar)

/-- Blanks and then nothing or a comment. -/
def isRest (cs : List Char) : Bool :=
  match cs.dropWhile isGap with
  | [] => true
  | c :: comment => c == '#' && comment.all isPlainChar

/-- What a line says: nothing, or the value of a key.  A line that is not understood gives none. -/
def line? (cs : List Char) : Option (Option (List Char × Setting)) :=
  if isRest cs then some none
  else do
    let (key, rest) ← key? (cs.dropWhile isGap)
    match rest.dropWhile isGap with
    | '=' :: rest =>
      let rest := rest.dropWhile isGap
      let isValueChar (c : Char) : Bool := !isGap c && c != '#'
      let v ← setting? (rest.takeWhile isValueChar)
      if isRest (rest.dropWhile isValueChar) then return some (key, v) else none
    | _ => none

/-- The lines of a text, each without its end. -/
def lines (cs : List Char) : List (List Char) :=
  match cs with
  | [] => [[]]
  | '\n' :: rest => [] :: lines rest
  | '\r' :: '\n' :: rest => [] :: lines rest
  | c :: rest =>
    match lines rest with
    | l :: ls => (c :: l) :: ls
    | [] => [[c]]

/-- Changes one setting. -/
def apply (c : Config) (key : String) (v : Setting) : Option Config :=
  match key, v with
  | "strict", .flag b => some { c with strict := b }
  | "debug", .flag b => some { c with debug := b }
  | "max_array_elements", .count n => if 0 ≤ n then some { c with maxElements := n.toNat } else none
  | "max_call_depth", .count n => if 0 ≤ n then some { c with maxDepth := n.toNat } else none
  | _, _ => none

/-- Applies lines in turn; `seen` are the keys before. -/
def applyLines (c : Config) (seen : List String) : List (List Char) → Option Config
  | [] => some c
  | l :: ls => do
    match ← line? l with
    | none => applyLines c seen ls
    | some (key, v) =>
      let key := String.ofList key
      if key ∈ seen then none
      else applyLines (← c.apply key v) (key :: seen) ls

/-- A text without the mark that may stand at its front to tell its encoding. -/
def withoutMark : List Char → List Char
  | c :: cs => if c.toNat = 0xFEFF then cs else c :: cs
  | [] => []

/-- The configuration that a text gives; what it does not mention keeps its default. -/
def parse? (source : String) : Option Config :=
  applyLines {} [] (lines (withoutMark source.toList))

end Config

end BasicScript
