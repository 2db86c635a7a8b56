import BasicScript.Json.Basic

/-!
# Writing a JSON text

Texts are quoted with the fewest escapes, numbers with a fraction or an exponent are written in
shortest form, and `pretty` lays a document out with two blanks for each level.
-/

namespace BasicScript

/-- A decimal of a document keeps its point: positional between `10 ^ -5` and `10 ^ 16`, with `.0`
behind a whole number, and with an exponent outside. -/
def Double.Decimal.layout (d : Double.Decimal) : List Char :=
  let point := d.exponent + (Double.digitChars d.digits).length
  if -5 < point ∧ point ≤ 16 then
    if 0 ≤ d.exponent then d.positional ++ ['.', '0'] else d.positional
  else d.scientific

/-- A numeral as it is written. -/
def Numeral.chars (n : Numeral) : List Char :=
  match n with
  | .integer negative m => (if negative then ['-'] else []) ++ Double.digitChars m
  | .decimal negative d => (if negative then ['-'] else []) ++ d.layout

namespace Json

/-- A hexadecimal digit in lower case. -/
def hexChar (n : Nat) : Char :=
  Nat.digitChar n

/-- One character inside quotes. -/
def escapeChar (c : Char) : List Char :=
  match c with
  | '"' => ['\\', '"']
  | '\\' => ['\\', '\\']
  | '\x08' => ['\\', 'b']
  | '\x0c' => ['\\', 'f']
  | '\n' => ['\\', 'n']
  | '\r' => ['\\', 'r']
  | '\t' => ['\\', 't']
  | c =>
    if c.toNat < 0x20 then ['\\', 'u', '0', '0', hexChar (c.toNat / 16), hexChar (c.toNat % 16)]
    else [c]

/-- A text in quotes. -/
def quote (s : String) : List Char :=
  '"' :: (s.toList.flatMap escapeChar ++ ['"'])

/-- A text that spells no characters has no other form than the empty one. -/
def quoteText (s : JsonText) : List Char :=
  quote (s.getD "")

/-- A new line at a level of nesting. -/
def newline (level : Nat) : List Char :=
  '\n' :: List.replicate (2 * level) ' '

mutual

/-- A document laid out with two blanks for each level, at some level. -/
def prettyChars (level : Nat) : Json → List Char
  | .null => "null".toList
  | .bool b => if b then "true".toList else "false".toList
  | .num n => n.chars
  | .str s => quoteText s
  | .arr [] => ['[', ']']
  | .arr (v :: vs) =>
    '[' :: newline (level + 1) ++ prettyChars (level + 1) v ++ prettyItems (level + 1) vs ++
      newline level ++ [']']
  | .obj [] => ['{', '}']
  | .obj ((k, v) :: ms) =>
    '{' :: newline (level + 1) ++ quoteText k ++ ':' :: ' ' :: prettyChars (level + 1) v ++
      prettyMembers (level + 1) ms ++ newline level ++ ['}']

/-- The items after the first one, each behind a comma and on its own line. -/
def prettyItems (level : Nat) : List Json → List Char
  | [] => []
  | v :: vs => ',' :: newline level ++ prettyChars level v ++ prettyItems level vs

/-- The members after the first one, each behind a comma and on its own line. -/
def prettyMembers (level : Nat) : List (JsonText × Json) → List Char
  | [] => []
  | (k, v) :: ms =>
    ',' :: newline level ++ quoteText k ++ ':' :: ' ' :: prettyChars level v ++
      prettyMembers level ms

end

/-- A document laid out over several lines. -/
def pretty (v : Json) : String :=
  String.ofList (prettyChars 0 v)

end Json

end BasicScript
