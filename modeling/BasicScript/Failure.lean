import BasicScript.Value.Basic

/-!
# Failures

What stops a program at run time and can be caught by it.  Each cause is a constructor; its kind and
its wording are given by `Failure.kind` and `Failure.message`.
-/

namespace BasicScript

/-- The kinds of failures that a program can tell apart. -/
inductive FailureKind where
  | undeclaredVariable | undeclaredAssignment | constAssignment | divisionByZero | moduloByZero
  | allocationTooLarge | assertionFailed | thrown | native | unknownFunction | arityMismatch
  | typeError | stackOverflow | invalidControlFlow
deriving DecidableEq, Repr

/-- The name under which a program sees a kind. -/
def FailureKind.name : FailureKind → String
  | undeclaredVariable => "UndeclaredVariable"
  | undeclaredAssignment => "UndeclaredAssignment"
  | constAssignment => "ConstAssignment"
  | divisionByZero => "DivisionByZero"
  | moduloByZero => "ModuloByZero"
  | allocationTooLarge => "AllocationTooLarge"
  | assertionFailed => "AssertionFailed"
  | thrown => "Thrown"
  | native => "Native"
  | unknownFunction => "UnknownFunction"
  | arityMismatch => "ArityMismatch"
  | typeError => "TypeError"
  | stackOverflow => "StackOverflow"
  | invalidControlFlow => "InvalidControlFlow"

/-- Why a program stopped. -/
inductive Failure where
  /-- An undeclared name was read under OPTION EXPLICIT. -/
  | undeclaredVariable (name : String)
  /-- An undeclared name was written under OPTION EXPLICIT. -/
  | undeclaredAssignment (name : String)
  | constAssignment (name : String)
  | divisionByZero
  | moduloByZero
  /-- An array of these sizes, with this many places, is over the limit. -/
  | allocationTooLarge (what : String) (sizes : List Int) (total : Nat)
  | assertionFailed (message : Option String)
  | thrown (message : String)
  | native (message : String)
  | unknownFunction (name : String)
  | arityMismatch (name : String) (expected got : Nat)
  | typeError (expected got : String)
  | stackOverflow (limit : Nat)
  /-- A signal found no statement that takes it. -/
  | invalidControlFlow (signal : String)
deriving DecidableEq, Repr

namespace Failure

/-- The kind of a failure. -/
def kind : Failure → FailureKind
  | undeclaredVariable _ => .undeclaredVariable
  | undeclaredAssignment _ => .undeclaredAssignment
  | constAssignment _ => .constAssignment
  | divisionByZero => .divisionByZero
  | moduloByZero => .moduloByZero
  | allocationTooLarge _ _ _ => .allocationTooLarge
  | assertionFailed _ => .assertionFailed
  | thrown _ => .thrown
  | native _ => .native
  | unknownFunction _ => .unknownFunction
  | arityMismatch _ _ _ => .arityMismatch
  | typeError _ _ => .typeError
  | stackOverflow _ => .stackOverflow
  | invalidControlFlow _ => .invalidControlFlow

/-- Sizes with commas between them. -/
def sizesText (sizes : List Int) : String :=
  String.intercalate "," (sizes.map Value.intText)

/-- The decimal notation of a number. -/
def numberText (n : Nat) : String :=
  Value.intText n

/-- The wording of a failure. -/
def message : Failure → String
  | undeclaredVariable name => "Use of undeclared variable '" ++ name ++ "'"
  | undeclaredAssignment name => "Assignment to undeclared variable '" ++ name ++ "'"
  | constAssignment name => "Assignment to constant '" ++ name ++ "'"
  | divisionByZero => "Integer division by zero"
  | moduloByZero => "Modulo by zero"
  | allocationTooLarge what sizes total =>
    what ++ " too large. sizes=[" ++ sizesText sizes ++ "] total(capped)=" ++ numberText total
  | assertionFailed message => message.getD "Assertion failed"
  | thrown message => message
  | native message => message
  | unknownFunction name => "Unknown function: " ++ name
  | arityMismatch name expected got =>
    name ++ ": expected " ++ numberText expected ++ " args, got " ++ numberText got
  | typeError expected got => "type error: expected " ++ expected ++ ", got " ++ got
  | stackOverflow limit => "stack overflow: call depth exceeded " ++ numberText limit
  | invalidControlFlow signal => signal ++ " outside of a loop"

end Failure

end BasicScript
