import BasicScript.Syntax.Tree

/-!
# Labels of lambdas

`Program.relabel` gives the lambdas of a program the labels `n`, `n + 1` and so on, each its own,
and says which label is free next.  Nothing else of the program changes.
-/

namespace BasicScript

/-- Gives out labels from a counter. -/
abbrev Labelling := StateM Nat

namespace Labelling

/-- The next free label. -/
def fresh : Labelling Nat := fun n => (n, n + 1)

mutual

/-- Labels the lambdas of an expression. -/
def expr : Expr → Labelling Expr
  | .nil => pure .nil
  | .bool b => pure (.bool b)
  | .int n => pure (.int n)
  | .float x => pure (.float x)
  | .str s => pure (.str s)
  | .var name => pure (.var name)
  | .unary op operand => return .unary op (← expr operand)
  | .binary op left right => return .binary op (← expr left) (← expr right)
  | .index target indices => return .index (← expr target) (← exprs indices)
  | .call callee args named => return .call callee (← exprs args) (← namedArgs named)
  | .member object name => return .member (← expr object) name
  | .methodCall object method args => return .methodCall (← expr object) method (← exprs args)
  | .array items => return .array (← exprs items)
  | .map entries => return .map (← pairs entries)
  | .lambda _ r => return .lambda (← fresh) (← routine r)
  | .interpolated parts => return .interpolated (← exprs parts)
  | .range first last => return .range (← expr first) (← expr last)
  | .comprehension item var source filter =>
    return .comprehension (← expr item) var (← expr source) (← expr? filter)
  | .choose subject arms otherwise =>
    return .choose (← expr subject) (← pairs arms) (← expr? otherwise)
  | .safeMember object name => return .safeMember (← expr object) name
  | .safeIndex object index => return .safeIndex (← expr object) (← expr index)
  | .coalesce left right => return .coalesce (← expr left) (← expr right)
  | .spread inner => return .spread (← expr inner)
  | .tuple items => return .tuple (← exprs items)
  | .typeOf inner => return .typeOf (← expr inner)
  | .properties inner => return .properties (← expr inner)
  | .methods inner => return .methods (← expr inner)
  | .superCall method args => return .superCall method (← exprs args)

/-- Labels an optional expression. -/
def expr? : Option Expr → Labelling (Option Expr)
  | none => pure none
  | some e => return some (← expr e)

/-- Labels a list of expressions. -/
def exprs : List Expr → Labelling (List Expr)
  | [] => pure []
  | e :: es => return (← expr e) :: (← exprs es)

/-- Labels a list of pairs of expressions. -/
def pairs : List (Expr × Expr) → Labelling (List (Expr × Expr))
  | [] => pure []
  | (a, b) :: rest => return (← expr a, ← expr b) :: (← pairs rest)

/-- Labels a list of named arguments. -/
def namedArgs : List (Ident × Expr) → Labelling (List (Ident × Expr))
  | [] => pure []
  | (name, value) :: rest => return (name, ← expr value) :: (← namedArgs rest)

/-- Labels a list of binders. -/
def binders : List Binder → Labelling (List Binder)
  | [] => pure []
  | ⟨name, init⟩ :: rest => return ⟨name, ← expr? init⟩ :: (← binders rest)

/-- Labels a routine. -/
def routine : Routine → Labelling Routine
  | ⟨params, body⟩ => return ⟨← binders params, ← stmts body⟩

/-- Labels a procedure. -/
def procedure : Procedure → Labelling Procedure
  | .sub name r => return .sub name (← routine r)
  | .function name result r => return .function name result (← routine r)

/-- Labels a list of procedures. -/
def procedures : List Procedure → Labelling (List Procedure)
  | [] => pure []
  | p :: ps => return (← procedure p) :: (← procedures ps)

/-- Labels a type declaration. -/
def typeDecl : TypeDecl → Labelling TypeDecl
  | ⟨name, parent, fields, methods⟩ => return ⟨name, parent, fields, ← procedures methods⟩

/-- Labels a list of guarded bodies. -/
def guardeds : List Guarded → Labelling (List Guarded)
  | [] => pure []
  | ⟨cond, body⟩ :: rest => return ⟨← expr cond, ← stmts body⟩ :: (← guardeds rest)

/-- Labels an optional handler. -/
def handler? : Option Handler → Labelling (Option Handler)
  | none => pure none
  | some ⟨var, body⟩ => return some ⟨var, ← stmts body⟩

/-- Labels what a CASE matches. -/
def caseTest : CaseTest → Labelling CaseTest
  | .values values => return .values (← exprs values)
  | .relational op value => return .relational op (← expr value)
  | .otherwise => pure .otherwise

/-- Labels a list of CASEs. -/
def caseBranches : List CaseBranch → Labelling (List CaseBranch)
  | [] => pure []
  | ⟨test, body⟩ :: rest => return ⟨← caseTest test, ← stmts body⟩ :: (← caseBranches rest)

/-- Labels a statement. -/
def stmt : Stmt → Labelling Stmt
  | .optionExplicit => pure .optionExplicit
  | .locals bs => return .locals (← binders bs)
  | .globals names => pure (.globals names)
  | .define name value => return .define name (← expr value)
  | .assign name value => return .assign name (← expr value)
  | .constant name value => return .constant name (← expr value)
  | .assignIndex name indices value => return .assignIndex name (← exprs indices) (← expr value)
  | .assignMember object member value =>
    return .assignMember (← expr object) member (← expr value)
  | .destructure names value => return .destructure names (← expr value)
  | .print value => return .print (← expr value)
  | .expr value => return .expr (← expr value)
  | .call name args named => return .call name (← exprs args) (← namedArgs named)
  | .branch branches otherwise => return .branch (← guardeds branches) (← stmts? otherwise)
  | .whileLoop cond body => return .whileLoop (← expr cond) (← stmts body)
  | .forLoop var first last step body =>
    return .forLoop var (← expr first) (← expr last) (← expr? step) (← stmts body)
  | .forEach var collection body => return .forEach var (← expr collection) (← stmts body)
  | .doLoop body => return .doLoop (← stmts body)
  | .repeatLoop body cond => return .repeatLoop (← stmts body) (← expr cond)
  | .select selector branches => return .select (← expr selector) (← caseBranches branches)
  | .returnWith value => return .returnWith (← expr? value)
  | .breakLoop => pure .breakLoop
  | .continueLoop => pure .continueLoop
  | .exit target => pure (.exit target)
  | .dim name sizes => return .dim name (← exprs sizes)
  | .redim name sizes preserve => return .redim name (← exprs sizes) preserve
  | .procedure p => return .procedure (← procedure p)
  | .typeBlock decl => return .typeBlock (← typeDecl decl)
  | .enum name members => return .enum name (← binders members)
  | .attempt body handler cleanup =>
    return .attempt (← stmts body) (← handler? handler) (← stmts? cleanup)
  | .raise value => return .raise (← expr value)
  | .assertion cond message => return .assertion (← expr cond) (← expr? message)
  | .using name resource body => return .using name (← expr resource) (← stmts body)
  | .debugPrint value => return .debugPrint (← expr value)
  | .breakpoint => pure .breakpoint

/-- Labels a list of statements. -/
def stmts : List Stmt → Labelling (List Stmt)
  | [] => pure []
  | s :: ss => return (← stmt s) :: (← stmts ss)

/-- Labels an optional body. -/
def stmts? : Option (List Stmt) → Labelling (Option (List Stmt))
  | none => pure none
  | some body => return some (← stmts body)

end

end Labelling

/-- An expression with labels from `n` on, and the label that is free then. -/
def Expr.relabel (e : Expr) (n : Nat) : Expr × Nat :=
  Labelling.expr e n

/-- A program with labels from `n` on, and the label that is free then. -/
def Program.relabel (p : Program) (n : Nat) : Program × Nat :=
  let (statements, n) := Labelling.stmts p.statements n
  (⟨statements⟩, n)

end BasicScript
