import BasicScript.Text.Case

/-!
# Operators and the targets of EXIT

The closed lists of the language, each with the word by which a program tree names it and the
symbol or keyword by which a reader of the language knows it.
-/

namespace BasicScript

/-- Operators with two operands. -/
inductive BinaryOp where
  | add | sub | mul | div | intDiv | mod | pow
  | eq | ne | lt | le | gt | ge
  | and | or | xor
deriving DecidableEq, Repr

namespace BinaryOp

/-- All operators, in the order of the language's description. -/
def all : List BinaryOp :=
  [add, sub, mul, div, intDiv, mod, pow, eq, ne, lt, le, gt, ge, and, or, xor]

/-- The word for an operator in a program tree. -/
def word : BinaryOp → String
  | add => "Add" | sub => "Sub" | mul => "Mul" | div => "Div" | intDiv => "IntDiv"
  | mod => "Mod" | pow => "Pow" | eq => "Eq" | ne => "Ne" | lt => "Lt" | le => "Le"
  | gt => "Gt" | ge => "Ge" | and => "And" | or => "Or" | xor => "Xor"

/-- The operator that a word names. -/
def ofWord? (w : String) : Option BinaryOp :=
  all.find? (·.word == w)

/-- The symbol of an operator in a program text. -/
def symbol : BinaryOp → String
  | add => "+" | sub => "-" | mul => "*" | div => "/" | intDiv => "\\"
  | mod => "MOD" | pow => "^" | eq => "=" | ne => "<>" | lt => "<" | le => "<="
  | gt => ">" | ge => ">=" | and => "AND" | or => "OR" | xor => "XOR"

/-- The six operators that compare their operands. -/
def isComparison : BinaryOp → Bool
  | eq | ne | lt | le | gt | ge => true
  | _ => false

theorem ofWord?_word (op : BinaryOp) : ofWord? op.word = some op := by
  cases op <;> rfl

end BinaryOp

/-- Operators with one operand. -/
inductive UnaryOp where
  | neg | plus | not
deriving DecidableEq, Repr

namespace UnaryOp

/-- All operators. -/
def all : List UnaryOp := [neg, plus, not]

/-- The word for an operator in a program tree. -/
def word : UnaryOp → String
  | neg => "Neg" | plus => "Plus" | not => "Not"

/-- The operator that a word names. -/
def ofWord? (w : String) : Option UnaryOp :=
  all.find? (·.word == w)

/-- The symbol of an operator in a program text. -/
def symbol : UnaryOp → String
  | neg => "-" | plus => "+" | not => "NOT"

theorem ofWord?_word (op : UnaryOp) : ofWord? op.word = some op := by
  cases op <;> rfl

end UnaryOp

/-- What an EXIT statement leaves. -/
inductive ExitTarget where
  | forLoop | whileLoop | doLoop | repeatLoop | sub | function
deriving DecidableEq, Repr

namespace ExitTarget

/-- The keyword of a target. -/
def keyword : ExitTarget → String
  | forLoop => "FOR" | whileLoop => "WHILE" | doLoop => "DO" | repeatLoop => "REPEAT"
  | sub => "SUB" | function => "FUNCTION"

/-- The target of a keyword in upper case; two targets have a second keyword. -/
def ofKeyword? : String → Option ExitTarget
  | "FOR" => some forLoop
  | "WHILE" => some whileLoop
  | "DO" | "LOOP" => some doLoop
  | "REPEAT" | "UNTIL" => some repeatLoop
  | "SUB" => some sub
  | "FUNCTION" => some function
  | _ => none

/-- The target that a word in any case names, or what is wrong with the word. -/
def ofString (s : String) : Except String ExitTarget :=
  match ofKeyword? (Text.upper s) with
  | some t => .ok t
  | none => .error ("unknown EXIT target: " ++ Text.upper s)

end ExitTarget

end BasicScript
