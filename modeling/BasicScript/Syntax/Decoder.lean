import BasicScript.Json.Reader
import BasicScript.Syntax.Tree

/-!
# Program trees from JSON

The reverse of `BasicScript.Syntax.Encoder`, and more lenient than it.  A node that holds nothing
may also be an object whose one member is `null`.  The parts of a node may come as an object in any
order or as an array in the fixed order.  Unknown members of an object are ignored, whatever they
hold; a known one must not come twice.  Optional parts may be missing or `null`, and some lists may
be missing.

Every decoder takes the number of arrays and objects that may still be opened.  Each one that is
opened uses one up, so the number bounds the recursion; ignored members are not opened.

* `Program.ofJson?` decodes a document, `Program.parse?` a text, `Expr.ofJson?` an expression.
-/

namespace BasicScript

namespace Decoder

/-- A text. -/
def text? : Json → Option String
  | .str s => s
  | _ => none

/-- An identifier. -/
def ident? (j : Json) : Option Ident :=
  (text? j).map Ident.ofString

/-- A truth value. -/
def bool? : Json → Option Bool
  | .bool b => some b
  | _ => none

/-- An integer of 64 bits. -/
def int? : Json → Option Int64
  | .num n => n.toInt64?
  | _ => none

/-- A finite double. -/
def float? : Json → Option Float
  | .num n => n.toFloat?
  | _ => none

/-- The target of an EXIT. -/
def exitTarget? (j : Json) : Option ExitTarget :=
  (text? j).bind fun s => (ExitTarget.ofString s).toOption

/-- An optional part: missing, `null` or present. -/
def optional? {α : Type} (decode : Json → Option α) : Option Json → Option (Option α)
  | none | some .null => some none
  | some j => (decode j).map some

/-- A part that may be missing. -/
def default? {α : Type} (missing : α) (decode : Json → Option α) : Option Json → Option α
  | none => some missing
  | some j => decode j

/-- The one member with a given name, if there is one; nothing if there are two. -/
def member? (members : List (JsonText × Json)) (name : String) : Option (Option Json) :=
  match members.filter (·.1 == some name) with
  | [] => some none
  | [(_, v)] => some (some v)
  | _ => none

/-- The parts of a node by their names: the members of an object, or the items of an array in the
order of the names. -/
def parts? (names : List String) : Json → Option (List (Option Json))
  | .obj members =>
    if members.all (·.1.isSome) then names.mapM (member? members) else none
  | .arr items =>
    if items.length ≤ names.length then
      some (items.map some ++ List.replicate (names.length - items.length) none)
    else none
  | _ => none

/-- A word for one of a list of things, bare or as the one member of an object that holds `null`. -/
def word? {α : Type} (find : String → Option α) : Nat → Json → Option α
  | _, .str (some w) => find w
  | _ + 1, .obj [(some w, .null)] => find w
  | _, _ => none

/-- A list. -/
def list? {α : Type} (decode : Nat → Json → Option α) : Nat → Json → Option (List α)
  | depth + 1, .arr items => items.mapM (decode depth)
  | _, _ => none

/-- A list of identifiers. -/
def idents? : Nat → Json → Option (List Ident) :=
  list? fun _ => ident?

/-- A field of a type. -/
def typeField? : Nat → Json → Option (Ident × Option Ident)
  | _ + 1, j => do
    match ← parts? ["name", "type_name"] j with
    | [some name, type] => return (← ident? name, ← optional? ident? type)
    | _ => none
  | _, _ => none

/-- The statements that hold nothing. -/
def bareStmt? : String → Option Stmt
  | "OptionExplicit" => some .optionExplicit
  | "Break" => some .breakLoop
  | "Continue" => some .continueLoop
  | "Breakpoint" => some .breakpoint
  | _ => none

mutual

/-- An expression. -/
def expr? : Nat → Json → Option Expr
  | _, .str (some "Nil") => some .nil
  | _ + 1, .obj [(some "Nil", .null)] => some .nil
  | depth + 1, .obj [(some kind, j)] =>
    match kind with
    | "Bool" => (bool? j).map .bool
    | "Int" => (int? j).map .int
    | "Float" => (float? j).map .float
    | "Str" => (text? j).map .str
    | "Var" => (ident? j).map .var
    | "Array" => (exprs? depth j).map .array
    | "Map" => (pairs? "key" "value" depth j).map .map
    | "Interpolated" => (exprs? depth j).map .interpolated
    | "Spread" => (expr? depth j).map .spread
    | "Tuple" => (exprs? depth j).map .tuple
    | "TypeOf" => (expr? depth j).map .typeOf
    | "GetProperties" => (expr? depth j).map .properties
    | "GetMethods" => (expr? depth j).map .methods
    | kind => exprOfParts? kind depth j
  | _, _ => none

/-- An expression with several parts. -/
def exprOfParts? (kind : String) : Nat → Json → Option Expr
  | depth + 1, j =>
    match kind with
    | "Unary" => do
      match ← parts? ["op", "operand"] j with
      | [some op, some operand] =>
        return .unary (← word? UnaryOp.ofWord? depth op) (← expr? depth operand)
      | _ => none
    | "Binary" => do
      match ← parts? ["op", "left", "right"] j with
      | [some op, some left, some right] =>
        return .binary (← word? BinaryOp.ofWord? depth op) (← expr? depth left)
          (← expr? depth right)
      | _ => none
    | "Index" => do
      match ← parts? ["target", "indices"] j with
      | [some target, some indices] =>
        return .index (← expr? depth target) (← exprs? depth indices)
      | _ => none
    | "Call" => do
      match ← parts? ["callee", "args", "named"] j with
      | [some callee, args, named] =>
        return .call (← ident? callee) (← default? [] (exprs? depth) args)
          (← default? [] (namedArgs? depth) named)
      | _ => none
    | "Member" => do
      match ← parts? ["object", "member"] j with
      | [some object, some name] => return .member (← expr? depth object) (← ident? name)
      | _ => none
    | "MethodCall" => do
      match ← parts? ["object", "method", "args"] j with
      | [some object, some method, args] =>
        return .methodCall (← expr? depth object) (← ident? method)
          (← default? [] (exprs? depth) args)
      | _ => none
    | "Lambda" => do
      match ← parts? ["params", "body"] j with
      | [params, some body] =>
        return .lambda 0 ⟨← default? [] (binders? "default" depth) params, ← stmts? depth body⟩
      | _ => none
    | "Range" => do
      match ← parts? ["start", "end"] j with
      | [some first, some last] => return .range (← expr? depth first) (← expr? depth last)
      | _ => none
    | "Comprehension" => do
      match ← parts? ["expr", "var", "source", "filter"] j with
      | [some item, some var, some source, filter] =>
        return .comprehension (← expr? depth item) (← ident? var) (← expr? depth source)
          (← optional? (expr? depth) filter)
      | _ => none
    | "Match" => do
      match ← parts? ["subject", "arms", "default"] j with
      | [some subject, some arms, otherwise] =>
        return .choose (← expr? depth subject) (← pairs? "pattern" "result" depth arms)
          (← optional? (expr? depth) otherwise)
      | _ => none
    | "NullSafeMember" => do
      match ← parts? ["object", "member"] j with
      | [some object, some name] => return .safeMember (← expr? depth object) (← ident? name)
      | _ => none
    | "NullSafeIndex" => do
      match ← parts? ["object", "index"] j with
      | [some object, some index] => return .safeIndex (← expr? depth object) (← expr? depth index)
      | _ => none
    | "Coalesce" => do
      match ← parts? ["left", "right"] j with
      | [some left, some right] => return .coalesce (← expr? depth left) (← expr? depth right)
      | _ => none
    | "SuperCall" => do
      match ← parts? ["method", "args"] j with
      | [some method, args] =>
        return .superCall (← ident? method) (← default? [] (exprs? depth) args)
      | _ => none
    | _ => none
  | _, _ => none

/-- A list of expressions. -/
def exprs? : Nat → Json → Option (List Expr)
  | depth + 1, .arr items => items.mapM (expr? depth)
  | _, _ => none

/-- A list of pairs of expressions. -/
def pairs? (first second : String) : Nat → Json → Option (List (Expr × Expr))
  | depth + 1, .arr items => items.mapM (pair? first second depth)
  | _, _ => none

/-- A pair of expressions. -/
def pair? (first second : String) : Nat → Json → Option (Expr × Expr)
  | depth + 1, j => do
    match ← parts? [first, second] j with
    | [some a, some b] => return (← expr? depth a, ← expr? depth b)
    | _ => none
  | _, _ => none

/-- A list of named arguments. -/
def namedArgs? : Nat → Json → Option (List (Ident × Expr))
  | depth + 1, .arr items => items.mapM (namedArg? depth)
  | _, _ => none

/-- A named argument. -/
def namedArg? : Nat → Json → Option (Ident × Expr)
  | depth + 1, j => do
    match ← parts? ["name", "value"] j with
    | [some name, some value] => return (← ident? name, ← expr? depth value)
    | _ => none
  | _, _ => none

/-- A list of binders, with the name under which their expressions stand. -/
def binders? (key : String) : Nat → Json → Option (List Binder)
  | depth + 1, .arr items => items.mapM (binder? key depth)
  | _, _ => none

/-- A binder. -/
def binder? (key : String) : Nat → Json → Option Binder
  | depth + 1, j => do
    match ← parts? ["name", key] j with
    | [some name, init] => return ⟨← ident? name, ← optional? (expr? depth) init⟩
    | _ => none
  | _, _ => none

/-- What a SUB holds. -/
def sub? : Nat → Json → Option Procedure
  | depth + 1, j => do
    match ← parts? ["name", "params", "body"] j with
    | [some name, params, some body] =>
      return .sub (← ident? name)
        ⟨← default? [] (binders? "default" depth) params, ← stmts? depth body⟩
    | _ => none
  | _, _ => none

/-- What a FUNCTION holds. -/
def function? : Nat → Json → Option Procedure
  | depth + 1, j => do
    match ← parts? ["name", "params", "return_type", "body"] j with
    | [some name, params, result, some body] =>
      let params ← default? [] (binders? "default" depth) params
      return .function (← ident? name) (← optional? ident? result) ⟨params, ← stmts? depth body⟩
    | _ => none
  | _, _ => none

/-- A method of a type. -/
def method? : Nat → Json → Option Procedure
  | depth + 1, .obj [(some "Sub", j)] => sub? depth j
  | depth + 1, .obj [(some "Function", j)] => function? depth j
  | _, _ => none

/-- A list of methods. -/
def methods? : Nat → Json → Option (List Procedure)
  | depth + 1, .arr items => items.mapM (method? depth)
  | _, _ => none

/-- What a TYPE holds. -/
def typeDecl? : Nat → Json → Option TypeDecl
  | depth + 1, j => do
    match ← parts? ["name", "parent", "fields", "methods"] j with
    | [some name, parent, fields, methods] =>
      return ⟨← ident? name, ← optional? ident? parent,
        ← default? [] (list? typeField? depth) fields, ← default? [] (methods? depth) methods⟩
    | _ => none
  | _, _ => none

/-- A guarded body. -/
def guarded? : Nat → Json → Option Guarded
  | depth + 1, j => do
    match ← parts? ["cond", "body"] j with
    | [some cond, some body] => return ⟨← expr? depth cond, ← stmts? depth body⟩
    | _ => none
  | _, _ => none

/-- A list of guarded bodies. -/
def guardeds? : Nat → Json → Option (List Guarded)
  | depth + 1, .arr items => items.mapM (guarded? depth)
  | _, _ => none

/-- A handler. -/
def handler? : Nat → Json → Option Handler
  | depth + 1, j => do
    match ← parts? ["var", "body"] j with
    | [var, some body] => return ⟨← optional? ident? var, ← stmts? depth body⟩
    | _ => none
  | _, _ => none

/-- What a CASE matches. -/
def caseTest? : Nat → Json → Option CaseTest
  | _, .str (some "Else") => some .otherwise
  | _ + 1, .obj [(some "Else", .null)] => some .otherwise
  | depth + 1, .obj [(some "Values", j)] => (exprs? depth j).map .values
  | depth + 1, .obj [(some "Relational", j)] => relational? depth j
  | _, _ => none

/-- What a CASE with an operator holds. -/
def relational? : Nat → Json → Option CaseTest
  | depth + 1, j => do
    match ← parts? ["op", "value"] j with
    | [some op, some value] =>
      return .relational (← word? BinaryOp.ofWord? depth op) (← expr? depth value)
    | _ => none
  | _, _ => none

/-- A CASE. -/
def caseBranch? : Nat → Json → Option CaseBranch
  | depth + 1, j => do
    match ← parts? ["test", "body"] j with
    | [some test, some body] => return ⟨← caseTest? depth test, ← stmts? depth body⟩
    | _ => none
  | _, _ => none

/-- A list of CASEs. -/
def caseBranches? : Nat → Json → Option (List CaseBranch)
  | depth + 1, .arr items => items.mapM (caseBranch? depth)
  | _, _ => none

/-- A statement. -/
def stmt? : Nat → Json → Option Stmt
  | _, .str (some kind) => bareStmt? kind
  | depth + 1, .obj [(some kind, j)] =>
    match kind with
    | "Local" => (binders? "value" depth j).map .locals
    | "Global" => (idents? depth j).map .globals
    | "Print" => (expr? depth j).map .print
    | "Expr" => (expr? depth j).map .expr
    | "Return" => (optional? (expr? depth) (some j)).map .returnWith
    | "Exit" => (exitTarget? j).map .exit
    | "Sub" => (sub? depth j).map .procedure
    | "Function" => (function? depth j).map .procedure
    | "Type" => (typeDecl? depth j).map .typeBlock
    | "Throw" => (expr? depth j).map .raise
    | "DebugPrint" => (expr? depth j).map .debugPrint
    | kind =>
      match bareStmt? kind, j with
      | some s, .null => some s
      | some _, _ => none
      | none, j => stmtOfParts? kind depth j
  | _, _ => none

/-- A statement with several parts. -/
def stmtOfParts? (kind : String) : Nat → Json → Option Stmt
  | depth + 1, j =>
    match kind with
    | "Let" => do
      match ← parts? ["name", "value"] j with
      | [some name, some value] => return .define (← ident? name) (← expr? depth value)
      | _ => none
    | "Assign" => do
      match ← parts? ["name", "value"] j with
      | [some name, some value] => return .assign (← ident? name) (← expr? depth value)
      | _ => none
    | "Const" => do
      match ← parts? ["name", "value"] j with
      | [some name, some value] => return .constant (← ident? name) (← expr? depth value)
      | _ => none
    | "AssignIndex" => do
      match ← parts? ["name", "indices", "value"] j with
      | [some name, some indices, some value] =>
        return .assignIndex (← ident? name) (← exprs? depth indices) (← expr? depth value)
      | _ => none
    | "AssignMember" => do
      match ← parts? ["object", "member", "value"] j with
      | [some object, some member, some value] =>
        return .assignMember (← expr? depth object) (← ident? member) (← expr? depth value)
      | _ => none
    | "Destructure" => do
      match ← parts? ["names", "value"] j with
      | [some names, some value] =>
        return .destructure (← idents? depth names) (← expr? depth value)
      | _ => none
    | "Call" => do
      match ← parts? ["name", "args", "named"] j with
      | [some name, args, named] =>
        return .call (← ident? name) (← default? [] (exprs? depth) args)
          (← default? [] (namedArgs? depth) named)
      | _ => none
    | "If" => do
      match ← parts? ["branches", "else_body"] j with
      | [some branches, otherwise] =>
        return .branch (← guardeds? depth branches) (← optional? (stmts? depth) otherwise)
      | _ => none
    | "While" => do
      match ← parts? ["cond", "body"] j with
      | [some cond, some body] => return .whileLoop (← expr? depth cond) (← stmts? depth body)
      | _ => none
    | "For" => do
      match ← parts? ["var", "start", "end", "step", "body"] j with
      | [some var, some first, some last, step, some body] =>
        return .forLoop (← ident? var) (← expr? depth first) (← expr? depth last)
          (← optional? (expr? depth) step) (← stmts? depth body)
      | _ => none
    | "ForEach" => do
      match ← parts? ["var", "collection", "body"] j with
      | [some var, some collection, some body] =>
        return .forEach (← ident? var) (← expr? depth collection) (← stmts? depth body)
      | _ => none
    | "Do" => do
      match ← parts? ["body"] j with
      | [some body] => return .doLoop (← stmts? depth body)
      | _ => none
    | "Repeat" => do
      match ← parts? ["body", "until"] j with
      | [some body, some cond] => return .repeatLoop (← stmts? depth body) (← expr? depth cond)
      | _ => none
    | "SelectCase" => do
      match ← parts? ["selector", "branches"] j with
      | [some selector, some branches] =>
        return .select (← expr? depth selector) (← caseBranches? depth branches)
      | _ => none
    | "Dim" => do
      match ← parts? ["name", "sizes"] j with
      | [some name, some sizes] => return .dim (← ident? name) (← exprs? depth sizes)
      | _ => none
    | "Redim" => do
      match ← parts? ["name", "sizes", "preserve"] j with
      | [some name, some sizes, preserve] =>
        return .redim (← ident? name) (← exprs? depth sizes) (← default? false bool? preserve)
      | _ => none
    | "Enum" => do
      match ← parts? ["name", "members"] j with
      | [some name, some members] => return .enum (← ident? name) (← binders? "value" depth members)
      | _ => none
    | "Try" => do
      match ← parts? ["body", "catch", "finally"] j with
      | [some body, handler, cleanup] =>
        return .attempt (← stmts? depth body) (← optional? (handler? depth) handler)
          (← optional? (stmts? depth) cleanup)
      | _ => none
    | "Assert" => do
      match ← parts? ["cond", "message"] j with
      | [some cond, message] =>
        return .assertion (← expr? depth cond) (← optional? (expr? depth) message)
      | _ => none
    | "Using" => do
      match ← parts? ["name", "resource", "body"] j with
      | [some name, some resource, some body] =>
        return .using (← ident? name) (← expr? depth resource) (← stmts? depth body)
      | _ => none
    | _ => none
  | _, _ => none

/-- A list of statements. -/
def stmts? : Nat → Json → Option (List Stmt)
  | depth + 1, .arr items => items.mapM (stmt? depth)
  | _, _ => none

end

/-- The number of arrays and objects that may be open at once. -/
def maxDepth : Nat := 127

end Decoder

/-- The expression of a document. -/
def Expr.ofJson? (j : Json) : Option Expr :=
  Decoder.expr? Decoder.maxDepth j

namespace Program

/-- The program of a document. -/
def ofJson? (j : Json) : Option Program := do
  match ← Decoder.parts? ["statements"] j with
  | [some statements] => return ⟨← Decoder.stmts? (Decoder.maxDepth - 1) statements⟩
  | _ => none

/-- The program of a JSON text. -/
def parse? (source : String) : Option Program :=
  (Json.parse? source).bind ofJson?

end Program

end BasicScript
