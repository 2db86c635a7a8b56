import BasicScript.Syntax.Ident
import BasicScript.Syntax.Operator

/-!
# Program trees

The statements and expressions of the language.  Three small notions recur in it and have one type
each: a *binder* is a name with an optional expression (a parameter with its default, a local with
its first value, a member of an enumeration), a *routine* is a list of parameters with a body, and a
*procedure* is a routine with a name.

A lambda carries a label, which tells apart two lambdas that are written alike at different places
of a program.  Labels are given out by `Program.relabel`; a tree that has just been read has label
zero everywhere.
-/

namespace BasicScript

mutual

/-- Expressions. -/
inductive Expr where
  | nil
  | bool (b : Bool)
  | int (n : Int64)
  | float (x : Float)
  | str (s : String)
  | var (name : Ident)
  | unary (op : UnaryOp) (operand : Expr)
  | binary (op : BinaryOp) (left right : Expr)
  /-- An item, as in `target(i, j)`; the indices are applied one after the other. -/
  | index (target : Expr) (indices : List Expr)
  | call (callee : Ident) (args : List Expr) (named : List (Ident × Expr))
  | member (object : Expr) (name : Ident)
  | methodCall (object : Expr) (method : Ident) (args : List Expr)
  | array (items : List Expr)
  | map (entries : List (Expr × Expr))
  | lambda (label : Nat) (routine : Routine)
  | interpolated (parts : List Expr)
  | range (first last : Expr)
  /-- An array `[item FOR var IN source IF filter]`. -/
  | comprehension (item : Expr) (var : Ident) (source : Expr) (filter : Option Expr)
  /-- MATCH, with arms of a pattern and a result. -/
  | choose (subject : Expr) (arms : List (Expr × Expr)) (otherwise : Option Expr)
  | safeMember (object : Expr) (name : Ident)
  | safeIndex (object index : Expr)
  | coalesce (left right : Expr)
  | spread (inner : Expr)
  | tuple (items : List Expr)
  | typeOf (inner : Expr)
  | properties (inner : Expr)
  | methods (inner : Expr)
  | superCall (method : Ident) (args : List Expr)

/-- A name with an optional expression. -/
structure Binder where
  name : Ident
  init : Option Expr

/-- Parameters and a body. -/
structure Routine where
  params : List Binder
  body : List Stmt

/-- A named routine: a SUB, or a FUNCTION with the type it is declared to return. -/
inductive Procedure where
  | sub (name : Ident) (routine : Routine)
  | function (name : Ident) (result : Option Ident) (routine : Routine)

/-- A condition and what runs under it. -/
structure Guarded where
  cond : Expr
  body : List Stmt

/-- The handler of a failure. -/
structure Handler where
  var : Option Ident
  body : List Stmt

/-- What a CASE matches. -/
inductive CaseTest where
  | values (values : List Expr)
  | relational (op : BinaryOp) (value : Expr)
  | otherwise

/-- One CASE of a SELECT. -/
structure CaseBranch where
  test : CaseTest
  body : List Stmt

/-- A TYPE block: fields with their declared types, and methods. -/
structure TypeDecl where
  name : Ident
  parent : Option Ident
  fields : List (Ident × Option Ident)
  methods : List Procedure

/-- Statements. -/
inductive Stmt where
  /-- OPTION EXPLICIT. -/
  | optionExplicit
  /-- LOCAL. -/
  | locals (binders : List Binder)
  /-- GLOBAL. -/
  | globals (names : List Ident)
  /-- LET. -/
  | define (name : Ident) (value : Expr)
  | assign (name : Ident) (value : Expr)
  /-- CONST. -/
  | constant (name : Ident) (value : Expr)
  | assignIndex (name : Ident) (indices : List Expr) (value : Expr)
  | assignMember (object : Expr) (member : Ident) (value : Expr)
  | destructure (names : List Ident) (value : Expr)
  | print (value : Expr)
  | expr (value : Expr)
  | call (name : Ident) (args : List Expr) (named : List (Ident × Expr))
  /-- IF with its ELSEIFs, and ELSE. -/
  | branch (branches : List Guarded) (otherwise : Option (List Stmt))
  | whileLoop (cond : Expr) (body : List Stmt)
  | forLoop (var : Ident) (first last : Expr) (step : Option Expr) (body : List Stmt)
  | forEach (var : Ident) (collection : Expr) (body : List Stmt)
  | doLoop (body : List Stmt)
  /-- REPEAT; it ends when the condition holds after the body. -/
  | repeatLoop (body : List Stmt) (cond : Expr)
  | select (selector : Expr) (branches : List CaseBranch)
  /-- RETURN. -/
  | returnWith (value : Option Expr)
  /-- BREAK. -/
  | breakLoop
  /-- CONTINUE. -/
  | continueLoop
  | exit (target : ExitTarget)
  | dim (name : Ident) (sizes : List Expr)
  | redim (name : Ident) (sizes : List Expr) (preserve : Bool)
  | procedure (p : Procedure)
  /-- TYPE. -/
  | typeBlock (decl : TypeDecl)
  | enum (name : Ident) (members : List Binder)
  /-- TRY, CATCH and FINALLY. -/
  | attempt (body : List Stmt) (handler : Option Handler) (cleanup : Option (List Stmt))
  /-- THROW. -/
  | raise (value : Expr)
  /-- ASSERT. -/
  | assertion (cond : Expr) (message : Option Expr)
  | using (name : Ident) (resource : Expr) (body : List Stmt)
  | debugPrint (value : Expr)
  | breakpoint

end

/-- A program: its top-level statements in order. -/
structure Program where
  statements : List Stmt

namespace Procedure

/-- The name of a procedure. -/
def name : Procedure → Ident
  | sub n _ => n
  | function n _ _ => n

end Procedure

end BasicScript
