import BasicScript.Json.Printer
import BasicScript.Syntax.Tree

/-!
# Program trees as JSON

A node is an object with one member, named for its kind, or just that name where the node holds
nothing.  The parts of a node with several parts are an object in a fixed order; an optional part
that is missing is left out, and so are named arguments where there are none.

`Program.toJson` gives the document, `Program.dump` its text.
-/

namespace BasicScript

namespace Encoder

/-- A node of some kind that holds something. -/
def node (kind : String) (content : Json) : Json :=
  .object [(kind, content)]

/-- A node of several parts, the missing ones left out. -/
def parts (ps : List (String × Option Json)) : Json :=
  .object (ps.filterMap fun (name, v) => v.map (name, ·))

/-- The name of an identifier. -/
def ident (i : Ident) : Json := .text i.name

/-- A list of identifiers. -/
def idents (is : List Ident) : Json := .arr (is.map ident)

/-- A double; what is not finite has no JSON number. -/
def float (x : Float) : Json :=
  match Numeral.ofFloat? x with
  | some n => .num n
  | none => .null

/-- The fields of a type. -/
def typeFields (fs : List (Ident × Option Ident)) : Json :=
  .arr (fs.map fun (name, type) =>
    parts [("name", some (ident name)), ("type_name", type.map ident)])

mutual

/-- An expression. -/
def expr : Expr → Json
  | .nil => .text "Nil"
  | .bool b => node "Bool" (.bool b)
  | .int n => node "Int" (.int n.toInt)
  | .float x => node "Float" (float x)
  | .str s => node "Str" (.text s)
  | .var name => node "Var" (ident name)
  | .unary op operand =>
    node "Unary" (parts [("op", some (.text op.word)), ("operand", some (expr operand))])
  | .binary op left right =>
    node "Binary" (parts [("op", some (.text op.word)), ("left", some (expr left)),
      ("right", some (expr right))])
  | .index target indices =>
    node "Index" (parts [("target", some (expr target)), ("indices", some (.arr (exprs indices)))])
  | .call callee args named =>
    node "Call" (parts [("callee", some (ident callee)), ("args", some (.arr (exprs args))),
      ("named", namedArgs? named)])
  | .member object name =>
    node "Member" (parts [("object", some (expr object)), ("member", some (ident name))])
  | .methodCall object method args =>
    node "MethodCall" (parts [("object", some (expr object)), ("method", some (ident method)),
      ("args", some (.arr (exprs args)))])
  | .array items => node "Array" (.arr (exprs items))
  | .map entries => node "Map" (.arr (pairs "key" "value" entries))
  | .lambda _ routine => node "Lambda" (parts (routineParts routine))
  | .interpolated items => node "Interpolated" (.arr (exprs items))
  | .range first last =>
    node "Range" (parts [("start", some (expr first)), ("end", some (expr last))])
  | .comprehension item var source filter =>
    node "Comprehension" (parts [("expr", some (expr item)), ("var", some (ident var)),
      ("source", some (expr source)), ("filter", expr? filter)])
  | .choose subject arms otherwise =>
    node "Match" (parts [("subject", some (expr subject)),
      ("arms", some (.arr (pairs "pattern" "result" arms))), ("default", expr? otherwise)])
  | .safeMember object name =>
    node "NullSafeMember" (parts [("object", some (expr object)), ("member", some (ident name))])
  | .safeIndex object index =>
    node "NullSafeIndex" (parts [("object", some (expr object)), ("index", some (expr index))])
  | .coalesce left right =>
    node "Coalesce" (parts [("left", some (expr left)), ("right", some (expr right))])
  | .spread inner => node "Spread" (expr inner)
  | .tuple items => node "Tuple" (.arr (exprs items))
  | .typeOf inner => node "TypeOf" (expr inner)
  | .properties inner => node "GetProperties" (expr inner)
  | .methods inner => node "GetMethods" (expr inner)
  | .superCall method args =>
    node "SuperCall" (parts [("method", some (ident method)), ("args", some (.arr (exprs args)))])

/-- An optional expression. -/
def expr? : Option Expr → Option Json
  | none => none
  | some e => some (expr e)

/-- The items of a list of expressions. -/
def exprs : List Expr → List Json
  | [] => []
  | e :: es => expr e :: exprs es

/-- The items of a list of pairs of expressions, with the names of the two parts. -/
def pairs (first second : String) : List (Expr × Expr) → List Json
  | [] => []
  | (a, b) :: rest =>
    parts [(first, some (expr a)), (second, some (expr b))] :: pairs first second rest

/-- The items of a list of named arguments. -/
def namedArgs : List (Ident × Expr) → List Json
  | [] => []
  | (name, value) :: rest =>
    parts [("name", some (ident name)), ("value", some (expr value))] :: namedArgs rest

/-- Named arguments, left out where there are none. -/
def namedArgs? : List (Ident × Expr) → Option Json
  | [] => none
  | (name, value) :: rest =>
    some (.arr (parts [("name", some (ident name)), ("value", some (expr value))] ::
      namedArgs rest))

/-- The items of a list of binders, with the name under which their expressions stand. -/
def binders (key : String) : List Binder → List Json
  | [] => []
  | ⟨name, init⟩ :: rest =>
    parts [("name", some (ident name)), (key, expr? init)] :: binders key rest

/-- The parts of a routine. -/
def routineParts : Routine → List (String × Option Json)
  | ⟨params, body⟩ =>
    [("params", some (.arr (binders "default" params))), ("body", some (.arr (stmts body)))]

/-- A procedure. -/
def procedure : Procedure → Json
  | .sub name ⟨params, body⟩ =>
    node "Sub" (parts [("name", some (ident name)),
      ("params", some (.arr (binders "default" params))), ("body", some (.arr (stmts body)))])
  | .function name result ⟨params, body⟩ =>
    node "Function" (parts [("name", some (ident name)),
      ("params", some (.arr (binders "default" params))), ("return_type", result.map ident),
      ("body", some (.arr (stmts body)))])

/-- The items of a list of procedures. -/
def procedures : List Procedure → List Json
  | [] => []
  | p :: ps => procedure p :: procedures ps

/-- The parts of a type declaration. -/
def typeDecl : TypeDecl → Json
  | ⟨name, parent, fields, methods⟩ =>
    parts [("name", some (ident name)), ("parent", parent.map ident),
      ("fields", some (typeFields fields)), ("methods", some (.arr (procedures methods)))]

/-- The items of a list of guarded bodies. -/
def guardeds : List Guarded → List Json
  | [] => []
  | ⟨cond, body⟩ :: rest =>
    parts [("cond", some (expr cond)), ("body", some (.arr (stmts body)))] :: guardeds rest

/-- An optional handler. -/
def handler? : Option Handler → Option Json
  | none => none
  | some ⟨var, body⟩ => some (parts [("var", var.map ident), ("body", some (.arr (stmts body)))])

/-- What a CASE matches. -/
def caseTest : CaseTest → Json
  | .values values => node "Values" (.arr (exprs values))
  | .relational op value =>
    node "Relational" (parts [("op", some (.text op.word)), ("value", some (expr value))])
  | .otherwise => .text "Else"

/-- The items of a list of CASEs. -/
def caseBranches : List CaseBranch → List Json
  | [] => []
  | ⟨test, body⟩ :: rest =>
    parts [("test", some (caseTest test)), ("body", some (.arr (stmts body)))] ::
      caseBranches rest

/-- A statement. -/
def stmt : Stmt → Json
  | .optionExplicit => .text "OptionExplicit"
  | .locals bs => node "Local" (.arr (binders "value" bs))
  | .globals names => node "Global" (idents names)
  | .define name value =>
    node "Let" (parts [("name", some (ident name)), ("value", some (expr value))])
  | .assign name value =>
    node "Assign" (parts [("name", some (ident name)), ("value", some (expr value))])
  | .constant name value =>
    node "Const" (parts [("name", some (ident name)), ("value", some (expr value))])
  | .assignIndex name indices value =>
    node "AssignIndex" (parts [("name", some (ident name)),
      ("indices", some (.arr (exprs indices))), ("value", some (expr value))])
  | .assignMember object member value =>
    node "AssignMember" (parts [("object", some (expr object)), ("member", some (ident member)),
      ("value", some (expr value))])
  | .destructure names value =>
    node "Destructure" (parts [("names", some (idents names)), ("value", some (expr value))])
  | .print value => node "Print" (expr value)
  | .expr value => node "Expr" (expr value)
  | .call name args named =>
    node "Call" (parts [("name", some (ident name)), ("args", some (.arr (exprs args))),
      ("named", namedArgs? named)])
  | .branch branches otherwise =>
    node "If" (parts [("branches", some (.arr (guardeds branches))),
      ("else_body", stmts? otherwise)])
  | .whileLoop cond body =>
    node "While" (parts [("cond", some (expr cond)), ("body", some (.arr (stmts body)))])
  | .forLoop var first last step body =>
    node "For" (parts [("var", some (ident var)), ("start", some (expr first)),
      ("end", some (expr last)), ("step", expr? step), ("body", some (.arr (stmts body)))])
  | .forEach var collection body =>
    node "ForEach" (parts [("var", some (ident var)), ("collection", some (expr collection)),
      ("body", some (.arr (stmts body)))])
  | .doLoop body => node "Do" (parts [("body", some (.arr (stmts body)))])
  | .repeatLoop body cond =>
    node "Repeat" (parts [("body", some (.arr (stmts body))), ("until", some (expr cond))])
  | .select selector branches =>
    node "SelectCase" (parts [("selector", some (expr selector)),
      ("branches", some (.arr (caseBranches branches)))])
  | .returnWith value => node "Return" ((expr? value).getD .null)
  | .breakLoop => .text "Break"
  | .continueLoop => .text "Continue"
  | .exit target => node "Exit" (.text target.keyword)
  | .dim name sizes =>
    node "Dim" (parts [("name", some (ident name)), ("sizes", some (.arr (exprs sizes)))])
  | .redim name sizes preserve =>
    node "Redim" (parts [("name", some (ident name)), ("sizes", some (.arr (exprs sizes))),
      ("preserve", some (.bool preserve))])
  | .procedure p => procedure p
  | .typeBlock decl => node "Type" (typeDecl decl)
  | .enum name members =>
    node "Enum" (parts [("name", some (ident name)),
      ("members", some (.arr (binders "value" members)))])
  | .attempt body handler cleanup =>
    node "Try" (parts [("body", some (.arr (stmts body))), ("catch", handler? handler),
      ("finally", stmts? cleanup)])
  | .raise value => node "Throw" (expr value)
  | .assertion cond message =>
    node "Assert" (parts [("cond", some (expr cond)), ("message", expr? message)])
  | .using name resource body =>
    node "Using" (parts [("name", some (ident name)), ("resource", some (expr resource)),
      ("body", some (.arr (stmts body)))])
  | .debugPrint value => node "DebugPrint" (expr value)
  | .breakpoint => .text "Breakpoint"

/-- The items of a list of statements. -/
def stmts : List Stmt → List Json
  | [] => []
  | s :: ss => stmt s :: stmts ss

/-- An optional body. -/
def stmts? : Option (List Stmt) → Option Json
  | none => none
  | some body => some (.arr (stmts body))

end

end Encoder

namespace Program

/-- The document of a program. -/
def toJson (p : Program) : Json :=
  Encoder.parts [("statements", some (.arr (Encoder.stmts p.statements)))]

/-- The text of a program's document, laid out over several lines. -/
def dump (p : Program) : String :=
  p.toJson.pretty

end Program

end BasicScript
