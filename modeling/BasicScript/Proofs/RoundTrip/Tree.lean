import BasicScript.Proofs.RoundTrip.Node

/-!
# Program trees as documents

Encoding a program tree and decoding it again, one case for each kind of node.  What a document
cannot hold is left out by `Plain`: a double that is not finite, and the label that a lambda gets
once its program is loaded.

* `Plain.expr`, `Plain.stmt` and their companions: finite doubles, and lambdas without labels.
* `readable_expr`, `readable_stmt`: the document of a tree is determined by its text.
* `decodes_expr`, `decodes_stmt`: the document of a plain tree decodes to this tree.
-/

namespace BasicScript

/-! ## Plain trees -/

namespace Plain

mutual

/-- All doubles of an expression are finite, and its lambdas have no labels yet. -/
def expr : Expr → Bool
  | .nil | .bool _ | .int _ | .str _ | .var _ => true
  | .float x => Double.isFinite x
  | .unary _ e => expr e
  | .binary _ a b => expr a && expr b
  | .index e es => expr e && exprs es
  | .call _ args named => exprs args && namedArgs named
  | .member e _ => expr e
  | .methodCall e _ args => expr e && exprs args
  | .array items => exprs items
  | .map entries => pairs entries
  | .lambda label q => label == 0 && routine q
  | .interpolated parts => exprs parts
  | .range a b => expr a && expr b
  | .comprehension item _ source filter => expr item && expr source && expr? filter
  | .choose subject arms otherwise => expr subject && pairs arms && expr? otherwise
  | .safeMember e _ => expr e
  | .safeIndex e i => expr e && expr i
  | .coalesce a b => expr a && expr b
  | .spread e => expr e
  | .tuple items => exprs items
  | .typeOf e => expr e
  | .properties e => expr e
  | .methods e => expr e
  | .superCall _ args => exprs args

/-- An optional expression is plain. -/
def expr? : Option Expr → Bool
  | none => true
  | some e => expr e

/-- All expressions of a list are plain. -/
def exprs : List Expr → Bool
  | [] => true
  | e :: es => expr e && exprs es

/-- All expressions of a list of pairs are plain. -/
def pairs : List (Expr × Expr) → Bool
  | [] => true
  | (a, b) :: rest => expr a && expr b && pairs rest

/-- All named arguments are plain. -/
def namedArgs : List (Ident × Expr) → Bool
  | [] => true
  | (_, e) :: rest => expr e && namedArgs rest

/-- All expressions of a list of binders are plain. -/
def binders : List Binder → Bool
  | [] => true
  | ⟨_, init⟩ :: rest => expr? init && binders rest

/-- The parameters and the body of a routine are plain. -/
def routine : Routine → Bool
  | ⟨params, body⟩ => binders params && stmts body

/-- A procedure is plain. -/
def procedure : Procedure → Bool
  | .sub _ q => routine q
  | .function _ _ q => routine q

/-- All procedures of a list are plain. -/
def procedures : List Procedure → Bool
  | [] => true
  | p :: ps => procedure p && procedures ps

/-- The methods of a type are plain. -/
def typeDecl : TypeDecl → Bool
  | ⟨_, _, _, methods⟩ => procedures methods

/-- All guarded bodies are plain. -/
def guardeds : List Guarded → Bool
  | [] => true
  | ⟨cond, body⟩ :: rest => expr cond && stmts body && guardeds rest

/-- An optional handler is plain. -/
def handler? : Option Handler → Bool
  | none => true
  | some ⟨_, body⟩ => stmts body

/-- What a CASE matches is plain. -/
def caseTest : CaseTest → Bool
  | .values es => exprs es
  | .relational _ e => expr e
  | .otherwise => true

/-- All CASEs are plain. -/
def caseBranches : List CaseBranch → Bool
  | [] => true
  | ⟨test, body⟩ :: rest => caseTest test && stmts body && caseBranches rest

/-- The expressions and bodies inside a statement are plain. -/
def stmt : Stmt → Bool
  | .optionExplicit | .globals _ | .breakLoop | .continueLoop | .exit _ | .breakpoint => true
  | .locals bs => binders bs
  | .define _ e | .assign _ e | .constant _ e => expr e
  | .assignIndex _ es e => exprs es && expr e
  | .assignMember object _ e => expr object && expr e
  | .destructure _ e | .print e | .expr e | .raise e | .debugPrint e => expr e
  | .call _ args named => exprs args && namedArgs named
  | .branch branches otherwise => guardeds branches && stmts? otherwise
  | .whileLoop cond body => expr cond && stmts body
  | .forLoop _ first last step body => expr first && expr last && expr? step && stmts body
  | .forEach _ e body => expr e && stmts body
  | .doLoop body => stmts body
  | .repeatLoop body cond => stmts body && expr cond
  | .select e branches => expr e && caseBranches branches
  | .returnWith e => expr? e
  | .dim _ es | .redim _ es _ => exprs es
  | .procedure q => procedure q
  | .typeBlock d => typeDecl d
  | .enum _ members => binders members
  | .attempt body handler cleanup => stmts body && handler? handler && stmts? cleanup
  | .assertion e message => expr e && expr? message
  | .using _ e body => expr e && stmts body

/-- All statements of a list are plain. -/
def stmts : List Stmt → Bool
  | [] => true
  | s :: ss => stmt s && stmts ss

/-- An optional body is plain. -/
def stmts? : Option (List Stmt) → Bool
  | none => true
  | some body => stmts body

end

/-- A program is plain. -/
def program (p : Program) : Bool :=
  stmts p.statements

end Plain

/-! ## Documents that their text determines -/

/-- Named arguments are a list, unless there are none. -/
theorem part_namedArgs? {P : Json → Prop} {es : List (Ident × Expr)}
    (h : P (.arr (Encoder.namedArgs es))) : Part P (Encoder.namedArgs? es) := by
  cases es with
  | nil => trivial
  | cons e es => exact h

-- One case for each constructor: a node and its parts are readable when the children are.
mutual

/-- **The document of an expression is determined by its text.** -/
theorem readable_expr : ∀ e : Expr, (Encoder.expr e).Readable
  | .nil => .text "Nil"
  | .bool b => .node (.bool b)
  | .int n => .node (.int n.toInt)
  | .float x => .node (readable_float x)
  | .str s => .node (.text s)
  | .var name => .node (.text name.name)
  | .unary op e => .nodeParts ⟨.text op.word, readable_expr e, trivial⟩
  | .binary op a b =>
    .nodeParts ⟨.text op.word, readable_expr a, readable_expr b, trivial⟩
  | .index e es => .nodeParts ⟨readable_expr e, readable_exprs es, trivial⟩
  | .call name args named =>
    .nodeParts ⟨.text name.name, readable_exprs args,
      part_namedArgs? (readable_namedArgs named), trivial⟩
  | .member e name | .safeMember e name =>
    .nodeParts ⟨readable_expr e, .text name.name, trivial⟩
  | .methodCall e name args =>
    .nodeParts ⟨readable_expr e, .text name.name, readable_exprs args, trivial⟩
  | .array es | .interpolated es | .tuple es => .node (readable_exprs es)
  | .map entries => .node (readable_pairs _ _ entries)
  | .lambda _ ⟨params, body⟩ =>
    .nodeParts ⟨readable_binders _ params, readable_stmts body, trivial⟩
  | .range a b | .safeIndex a b | .coalesce a b =>
    .nodeParts ⟨readable_expr a, readable_expr b, trivial⟩
  | .comprehension item var source filter =>
    .nodeParts ⟨readable_expr item, .text var.name, readable_expr source,
      readable_expr? filter, trivial⟩
  | .choose subject arms otherwise =>
    .nodeParts ⟨readable_expr subject, readable_pairs _ _ arms, readable_expr? otherwise,
      trivial⟩
  | .spread e | .typeOf e | .properties e | .methods e => .node (readable_expr e)
  | .superCall name args => .nodeParts ⟨.text name.name, readable_exprs args, trivial⟩

/-- The document of an optional expression, where there is one. -/
theorem readable_expr? : ∀ e : Option Expr, Part Json.Readable (Encoder.expr? e)
  | none => trivial
  | some e => readable_expr e

theorem readable_exprs : ∀ es : List Expr, (Json.arr (Encoder.exprs es)).Readable
  | [] => .nil
  | e :: es => .cons (readable_expr e) (readable_exprs es)

/-- The document of a list of pairs, under any two names for their parts. -/
theorem readable_pairs (first second : String) :
    ∀ es : List (Expr × Expr), (Json.arr (Encoder.pairs first second es)).Readable
  | [] => .nil
  | (a, b) :: rest =>
    .cons (.parts ⟨readable_expr a, readable_expr b, trivial⟩) (readable_pairs first second rest)

theorem readable_namedArgs :
    ∀ es : List (Ident × Expr), (Json.arr (Encoder.namedArgs es)).Readable
  | [] => .nil
  | (name, e) :: rest =>
    .cons (.parts ⟨.text name.name, readable_expr e, trivial⟩) (readable_namedArgs rest)

/-- The document of a list of binders, under any name for what they start with. -/
theorem readable_binders (key : String) :
    ∀ bs : List Binder, (Json.arr (Encoder.binders key bs)).Readable
  | [] => .nil
  | ⟨name, init⟩ :: rest =>
    .cons (.parts ⟨.text name.name, readable_expr? init, trivial⟩) (readable_binders key rest)

/-- The document of a SUB or FUNCTION. -/
theorem readable_procedure : ∀ p : Procedure, (Encoder.procedure p).Readable
  | .sub name ⟨params, body⟩ =>
    .nodeParts ⟨.text name.name, readable_binders _ params, readable_stmts body, trivial⟩
  | .function name result ⟨params, body⟩ =>
    .nodeParts ⟨.text name.name, readable_binders _ params, readable_part_ident result,
      readable_stmts body, trivial⟩

theorem readable_procedures : ∀ ps : List Procedure, (Json.arr (Encoder.procedures ps)).Readable
  | [] => .nil
  | p :: ps => .cons (readable_procedure p) (readable_procedures ps)

/-- The document of a TYPE. -/
theorem readable_typeDecl : ∀ d : TypeDecl, (Encoder.typeDecl d).Readable
  | ⟨name, parent, fields, methods⟩ =>
    .parts ⟨.text name.name, readable_part_ident parent, readable_typeFields fields,
      readable_procedures methods, trivial⟩

theorem readable_guardeds : ∀ gs : List Guarded, (Json.arr (Encoder.guardeds gs)).Readable
  | [] => .nil
  | ⟨cond, body⟩ :: rest =>
    .cons (.parts ⟨readable_expr cond, readable_stmts body, trivial⟩) (readable_guardeds rest)

/-- The document of a CATCH, where there is one. -/
theorem readable_handler? : ∀ h : Option Handler, Part Json.Readable (Encoder.handler? h)
  | none => trivial
  | some ⟨var, body⟩ =>
    Json.Readable.parts ⟨readable_part_ident var, readable_stmts body, trivial⟩

/-- The document of the test of a CASE. -/
theorem readable_caseTest : ∀ t : CaseTest, (Encoder.caseTest t).Readable
  | .values es => .node (readable_exprs es)
  | .relational op e => .nodeParts ⟨.text op.word, readable_expr e, trivial⟩
  | .otherwise => .text "Else"

/-- The document of the branches of a SELECT. -/
theorem readable_caseBranches :
    ∀ bs : List CaseBranch, (Json.arr (Encoder.caseBranches bs)).Readable
  | [] => .nil
  | ⟨test, body⟩ :: rest =>
    .cons (.parts ⟨readable_caseTest test, readable_stmts body, trivial⟩)
      (readable_caseBranches rest)

/-- **The document of a statement is determined by its text.** -/
theorem readable_stmt : ∀ s : Stmt, (Encoder.stmt s).Readable
  | .optionExplicit => .text "OptionExplicit"
  | .locals bs => .node (readable_binders _ bs)
  | .globals names => .node (readable_idents names)
  | .define name e | .assign name e | .constant name e =>
    .nodeParts ⟨.text name.name, readable_expr e, trivial⟩
  | .assignIndex name es e =>
    .nodeParts ⟨.text name.name, readable_exprs es, readable_expr e, trivial⟩
  | .assignMember object name e =>
    .nodeParts ⟨readable_expr object, .text name.name, readable_expr e, trivial⟩
  | .destructure names e => .nodeParts ⟨readable_idents names, readable_expr e, trivial⟩
  | .print e | .expr e | .raise e | .debugPrint e => .node (readable_expr e)
  | .call name args named =>
    .nodeParts ⟨.text name.name, readable_exprs args,
      part_namedArgs? (readable_namedArgs named), trivial⟩
  | .branch branches otherwise =>
    .nodeParts ⟨readable_guardeds branches, readable_stmts? otherwise, trivial⟩
  | .whileLoop cond body => .nodeParts ⟨readable_expr cond, readable_stmts body, trivial⟩
  | .forLoop var first last step body =>
    .nodeParts ⟨.text var.name, readable_expr first, readable_expr last, readable_expr? step,
      readable_stmts body, trivial⟩
  | .forEach var e body =>
    .nodeParts ⟨.text var.name, readable_expr e, readable_stmts body, trivial⟩
  | .doLoop body => .nodeParts ⟨readable_stmts body, trivial⟩
  | .repeatLoop body cond => .nodeParts ⟨readable_stmts body, readable_expr cond, trivial⟩
  | .select e branches =>
    .nodeParts ⟨readable_expr e, readable_caseBranches branches, trivial⟩
  | .returnWith none => .node .null
  | .returnWith (some e) => .node (readable_expr e)
  | .breakLoop => .text "Break"
  | .continueLoop => .text "Continue"
  | .exit target => .node (.text target.keyword)
  | .dim name es => .nodeParts ⟨.text name.name, readable_exprs es, trivial⟩
  | .redim name es preserve =>
    .nodeParts ⟨.text name.name, readable_exprs es, .bool preserve, trivial⟩
  | .procedure p => readable_procedure p
  | .typeBlock d => .node (readable_typeDecl d)
  | .enum name members =>
    .nodeParts ⟨.text name.name, readable_binders _ members, trivial⟩
  | .attempt body handler cleanup =>
    .nodeParts ⟨readable_stmts body, readable_handler? handler, readable_stmts? cleanup,
      trivial⟩
  | .assertion e message => .nodeParts ⟨readable_expr e, readable_expr? message, trivial⟩
  | .using name e body =>
    .nodeParts ⟨.text name.name, readable_expr e, readable_stmts body, trivial⟩
  | .breakpoint => .text "Breakpoint"

theorem readable_stmts : ∀ ss : List Stmt, (Json.arr (Encoder.stmts ss)).Readable
  | [] => .nil
  | s :: ss => .cons (readable_stmt s) (readable_stmts ss)

/-- The document of an optional block, where there is one. -/
theorem readable_stmts? : ∀ ss : Option (List Stmt), Part Json.Readable (Encoder.stmts? ss)
  | none => trivial
  | some body => readable_stmts body

end

/-- The document of every program is determined by its text. -/
theorem readable_program (p : Program) : p.toJson.Readable :=
  .parts ⟨readable_stmts p.statements, trivial⟩

/-! ## Decoding what was encoded -/

/-- No expression is written as null, so an expression that is there is never taken for a missing
one. -/
theorem expr_ne_null (e : Expr) : Encoder.expr e ≠ .null := by
  cases e <;> nofun

open Decoder

/-- Named arguments come back whether they are written or left out as empty. -/
theorem default?_namedArgs? {es : List (Ident × Expr)} {depth : Nat}
    (h : Decodes Decoder.namedArgs? (.arr (Encoder.namedArgs es)) es)
    (hdepth : Part (·.nesting ≤ depth) (Encoder.namedArgs? es)) :
    default? [] (Decoder.namedArgs? depth) (Encoder.namedArgs? es) = some es := by
  cases es with
  | nil => rfl
  | cons e es => exact h depth hdepth

/-- A procedure that decodes as a method decodes as a statement. -/
theorem decodes_stmt_procedure {p : Procedure}
    (h : Decodes Decoder.method? (Encoder.procedure p) p) :
    Decodes Decoder.stmt? (Encoder.procedure p) (.procedure p) := by
  cases p with
  | sub name q =>
    obtain ⟨params, body⟩ := q
    refine .node fun depth hdepth => ?_
    exact congrArg (Option.map Stmt.procedure) (h (depth + 1) (Nat.succ_le_succ hdepth))
  | function name result q =>
    obtain ⟨params, body⟩ := q
    refine .node fun depth hdepth => ?_
    exact congrArg (Option.map Stmt.procedure) (h (depth + 1) (Nat.succ_le_succ hdepth))

-- One case for each constructor: `bind_parts` finds the parts of a node under their names, and each
-- `bind_some` decodes one of them.
mutual

/-- **The document of a plain expression decodes to the expression.** -/
theorem decodes_expr : ∀ e : Expr, Plain.expr e = true → Decodes Decoder.expr? (Encoder.expr e) e
  | .nil, _ => by
    intro depth _
    cases depth <;> rfl
  | .bool _, _ => .node fun _ _ => rfl
  | .int n, _ => .node fun _ _ => congrArg (Option.map Expr.int) (int?_int n)
  | .float _, h => .node fun _ _ => congrArg (Option.map Expr.float) (float?_float h)
  | .str _, _ => .node fun _ _ => rfl
  | .var name, _ => .node fun _ _ => congrArg (Option.map Expr.var) (ident?_ident name)
  | .unary op e, h => .nodeParts fun depth ⟨_, hde, _⟩ =>
    bind_parts (by decide) rfl <|
      bind_some (word?_text (UnaryOp.ofWord?_word op) depth) <|
      bind_some (decodes_expr e h depth hde) rfl
  | .binary op a b, h => .nodeParts fun depth ⟨_, hda, hdb, _⟩ =>
    have ⟨ha, hb⟩ := Bool.and_eq_true_iff.mp h
    bind_parts (by decide) rfl <|
      bind_some (word?_text (BinaryOp.ofWord?_word op) depth) <|
      bind_some (decodes_expr a ha depth hda) <|
      bind_some (decodes_expr b hb depth hdb) rfl
  | .index e es, h => .nodeParts fun depth ⟨hde, hdes, _⟩ =>
    have ⟨he, hes⟩ := Bool.and_eq_true_iff.mp h
    bind_parts (by decide) rfl <|
      bind_some (decodes_expr e he depth hde) <|
      bind_some (decodes_exprs es hes depth hdes) rfl
  | .call name args named, h => .nodeParts fun depth ⟨_, hdargs, hdnamed, _⟩ =>
    have ⟨hargs, hnamed⟩ := Bool.and_eq_true_iff.mp h
    bind_parts (by decide) rfl <|
      bind_some (ident?_ident name) <|
      bind_some (decodes_exprs args hargs depth hdargs) <|
      bind_some (default?_namedArgs? (decodes_namedArgs named hnamed) hdnamed) rfl
  | .member e name, h | .safeMember e name, h => .nodeParts fun depth ⟨hde, _⟩ =>
    bind_parts (by decide) rfl <|
      bind_some (decodes_expr e h depth hde) <|
      bind_some (ident?_ident name) rfl
  | .methodCall e name args, h => .nodeParts fun depth ⟨hde, _, hdargs, _⟩ =>
    have ⟨he, hargs⟩ := Bool.and_eq_true_iff.mp h
    bind_parts (by decide) rfl <|
      bind_some (decodes_expr e he depth hde) <|
      bind_some (ident?_ident name) <|
      bind_some (decodes_exprs args hargs depth hdargs) rfl
  | .array es, h => .node fun depth hdes =>
    congrArg (Option.map Expr.array) (decodes_exprs es h depth hdes)
  | .map entries, h => .node fun depth hd =>
    congrArg (Option.map Expr.map) (decodes_pairs (by decide) entries h depth hd)
  | .lambda label ⟨params, body⟩, h => .nodeParts fun depth ⟨hdparams, hdbody, _⟩ => by
    obtain ⟨hlabel, hroutine⟩ := Bool.and_eq_true_iff.mp h
    obtain ⟨hparams, hbody⟩ := Bool.and_eq_true_iff.mp hroutine
    obtain rfl := eq_of_beq hlabel
    exact bind_parts (by decide) rfl <|
      bind_some (decodes_binders (by decide) params hparams depth hdparams) <|
      bind_some (decodes_stmts body hbody depth hdbody) rfl
  | .interpolated es, h => .node fun depth hdes =>
    congrArg (Option.map Expr.interpolated) (decodes_exprs es h depth hdes)
  | .range a b, h | .safeIndex a b, h | .coalesce a b, h => .nodeParts fun depth ⟨hda, hdb, _⟩ =>
    have ⟨ha, hb⟩ := Bool.and_eq_true_iff.mp h
    bind_parts (by decide) rfl <|
      bind_some (decodes_expr a ha depth hda) <|
      bind_some (decodes_expr b hb depth hdb) rfl
  | .comprehension item var source filter, h =>
    .nodeParts fun depth ⟨hditem, _, hdsource, hdfilter, _⟩ =>
    have ⟨hrest, hfilter⟩ := Bool.and_eq_true_iff.mp h
    have ⟨hitem, hsource⟩ := Bool.and_eq_true_iff.mp hrest
    bind_parts (by decide) rfl <|
      bind_some (decodes_expr item hitem depth hditem) <|
      bind_some (ident?_ident var) <|
      bind_some (decodes_expr source hsource depth hdsource) <|
      bind_some (optional?_expr? filter hfilter depth hdfilter) rfl
  | .choose subject arms otherwise, h =>
    .nodeParts fun depth ⟨hdsubject, hdarms, hdotherwise, _⟩ =>
    have ⟨hrest, hotherwise⟩ := Bool.and_eq_true_iff.mp h
    have ⟨hsubject, harms⟩ := Bool.and_eq_true_iff.mp hrest
    bind_parts (by decide) rfl <|
      bind_some (decodes_expr subject hsubject depth hdsubject) <|
      bind_some (decodes_pairs (by decide) arms harms depth hdarms) <|
      bind_some (optional?_expr? otherwise hotherwise depth hdotherwise) rfl
  | .spread e, h => .node fun depth hde =>
    congrArg (Option.map Expr.spread) (decodes_expr e h depth hde)
  | .tuple es, h => .node fun depth hdes =>
    congrArg (Option.map Expr.tuple) (decodes_exprs es h depth hdes)
  | .typeOf e, h => .node fun depth hde =>
    congrArg (Option.map Expr.typeOf) (decodes_expr e h depth hde)
  | .properties e, h => .node fun depth hde =>
    congrArg (Option.map Expr.properties) (decodes_expr e h depth hde)
  | .methods e, h => .node fun depth hde =>
    congrArg (Option.map Expr.methods) (decodes_expr e h depth hde)
  | .superCall name args, h => .nodeParts fun depth ⟨_, hdargs, _⟩ =>
    bind_parts (by decide) rfl <|
      bind_some (ident?_ident name) <|
      bind_some (decodes_exprs args h depth hdargs) rfl

/-- An optional expression comes back, and so does the lack of one. -/
theorem optional?_expr? : ∀ e : Option Expr, Plain.expr? e = true → ∀ depth,
    Part (·.nesting ≤ depth) (Encoder.expr? e) →
    optional? (Decoder.expr? depth) (Encoder.expr? e) = some e
  | none, _, _, _ => rfl
  | some e, h, depth, hd => optional?_some (expr_ne_null e) (decodes_expr e h depth hd)

theorem decodes_exprs : ∀ es : List Expr, Plain.exprs es = true →
    Decodes Decoder.exprs? (.arr (Encoder.exprs es)) es
  | [], _ => .nil fun _ _ => rfl
  | e :: es, h =>
    have ⟨he, hes⟩ := Bool.and_eq_true_iff.mp h
    .cons (fun _ _ => rfl) (decodes_expr e he) (decodes_exprs es hes)

/-- The document of a list of plain pairs decodes to the list, if the two parts have different
names. -/
theorem decodes_pairs {first second : String} (hnames : [first, second].Nodup) :
    ∀ es : List (Expr × Expr), Plain.pairs es = true →
    Decodes (Decoder.pairs? first second) (.arr (Encoder.pairs first second es)) es
  | [], _ => .nil fun _ _ => rfl
  | (a, b) :: rest, h =>
    have ⟨hpair, hrest⟩ := Bool.and_eq_true_iff.mp h
    have ⟨ha, hb⟩ := Bool.and_eq_true_iff.mp hpair
    have hfirst : Decodes (Decoder.pair? first second)
        (Encoder.parts [(first, some (Encoder.expr a)), (second, some (Encoder.expr b))]) (a, b) :=
      .parts fun depth ⟨hda, hdb, _⟩ => bind_parts hnames rfl <|
        bind_some (decodes_expr a ha depth hda) <|
        bind_some (decodes_expr b hb depth hdb) rfl
    .cons (fun _ _ => rfl) hfirst (decodes_pairs hnames rest hrest)

/-- The document of plain named arguments decodes to them. -/
theorem decodes_namedArgs : ∀ es : List (Ident × Expr), Plain.namedArgs es = true →
    Decodes Decoder.namedArgs? (.arr (Encoder.namedArgs es)) es
  | [], _ => .nil fun _ _ => rfl
  | (name, e) :: rest, h =>
    have ⟨he, hrest⟩ := Bool.and_eq_true_iff.mp h
    have hfirst : Decodes Decoder.namedArg?
        (Encoder.parts [("name", some (Encoder.ident name)), ("value", some (Encoder.expr e))])
        (name, e) :=
      .parts fun depth ⟨_, hde, _⟩ => bind_parts (by decide) rfl <|
        bind_some (ident?_ident name) <|
        bind_some (decodes_expr e he depth hde) rfl
    .cons (fun _ _ => rfl) hfirst (decodes_namedArgs rest hrest)

/-- The document of plain binders decodes to them, if what they start with is not called their
name. -/
theorem decodes_binders {key : String} (hnames : ["name", key].Nodup) :
    ∀ bs : List Binder, Plain.binders bs = true →
    Decodes (Decoder.binders? key) (.arr (Encoder.binders key bs)) bs
  | [], _ => .nil fun _ _ => rfl
  | ⟨name, init⟩ :: rest, h =>
    have ⟨hinit, hrest⟩ := Bool.and_eq_true_iff.mp h
    have hfirst : Decodes (Decoder.binder? key)
        (Encoder.parts [("name", some (Encoder.ident name)), (key, Encoder.expr? init)])
        ⟨name, init⟩ :=
      .parts fun depth ⟨_, hdinit, _⟩ => bind_parts hnames rfl <|
        bind_some (ident?_ident name) <|
        bind_some (optional?_expr? init hinit depth hdinit) rfl
    .cons (fun _ _ => rfl) hfirst (decodes_binders hnames rest hrest)

/-- The document of a plain SUB or FUNCTION decodes to it. -/
theorem decodes_procedure : ∀ p : Procedure, Plain.procedure p = true →
    Decodes Decoder.method? (Encoder.procedure p) p
  | .sub name ⟨params, body⟩, h => .nodeParts fun depth ⟨_, hdparams, hdbody, _⟩ =>
    have ⟨hparams, hbody⟩ := Bool.and_eq_true_iff.mp h
    bind_parts (by decide) rfl <|
      bind_some (ident?_ident name) <|
      bind_some (decodes_binders (by decide) params hparams depth hdparams) <|
      bind_some (decodes_stmts body hbody depth hdbody) rfl
  | .function name result ⟨params, body⟩, h => .nodeParts fun depth ⟨_, hdparams, _, hdbody, _⟩ =>
    have ⟨hparams, hbody⟩ := Bool.and_eq_true_iff.mp h
    bind_parts (by decide) rfl <|
      bind_some (decodes_binders (by decide) params hparams depth hdparams) <|
      bind_some (ident?_ident name) <|
      bind_some (optional?_ident result) <|
      bind_some (decodes_stmts body hbody depth hdbody) rfl

theorem decodes_procedures : ∀ ps : List Procedure, Plain.procedures ps = true →
    Decodes Decoder.methods? (.arr (Encoder.procedures ps)) ps
  | [], _ => .nil fun _ _ => rfl
  | p :: ps, h =>
    have ⟨hp, hps⟩ := Bool.and_eq_true_iff.mp h
    .cons (fun _ _ => rfl) (decodes_procedure p hp) (decodes_procedures ps hps)

/-- The document of a plain TYPE decodes to it. -/
theorem decodes_typeDecl : ∀ d : TypeDecl, Plain.typeDecl d = true →
    Decodes Decoder.typeDecl? (Encoder.typeDecl d) d
  | ⟨name, parent, fields, methods⟩, h => .parts fun depth ⟨_, _, hdfields, hdmethods, _⟩ =>
    bind_parts (by decide) rfl <|
      bind_some (ident?_ident name) <|
      bind_some (optional?_ident parent) <|
      bind_some (decodes_typeFields fields depth hdfields) <|
      bind_some (decodes_procedures methods h depth hdmethods) rfl

theorem decodes_guardeds : ∀ gs : List Guarded, Plain.guardeds gs = true →
    Decodes Decoder.guardeds? (.arr (Encoder.guardeds gs)) gs
  | [], _ => .nil fun _ _ => rfl
  | ⟨cond, body⟩ :: rest, h =>
    have ⟨hfirst, hrest⟩ := Bool.and_eq_true_iff.mp h
    have ⟨hcond, hbody⟩ := Bool.and_eq_true_iff.mp hfirst
    have hfirst : Decodes Decoder.guarded?
        (Encoder.parts [("cond", some (Encoder.expr cond)),
          ("body", some (.arr (Encoder.stmts body)))]) ⟨cond, body⟩ :=
      .parts fun depth ⟨hdcond, hdbody, _⟩ => bind_parts (by decide) rfl <|
        bind_some (decodes_expr cond hcond depth hdcond) <|
        bind_some (decodes_stmts body hbody depth hdbody) rfl
    .cons (fun _ _ => rfl) hfirst (decodes_guardeds rest hrest)

/-- A CATCH comes back, and so does the lack of one. -/
theorem optional?_handler? : ∀ c : Option Handler, Plain.handler? c = true → ∀ depth,
    Part (·.nesting ≤ depth) (Encoder.handler? c) →
    optional? (Decoder.handler? depth) (Encoder.handler? c) = some c
  | none, _, _, _ => rfl
  | some ⟨var, body⟩, h, depth, hd =>
    have hhandler : Decodes Decoder.handler?
        (Encoder.parts [("var", var.map Encoder.ident),
          ("body", some (.arr (Encoder.stmts body)))]) ⟨var, body⟩ :=
      .parts fun depth ⟨_, hdbody, _⟩ => bind_parts (by decide) rfl <|
        bind_some (optional?_ident var) <|
        bind_some (decodes_stmts body h depth hdbody) rfl
    optional?_some nofun (hhandler depth hd)

/-- The document of the plain test of a CASE decodes to it. -/
theorem decodes_caseTest : ∀ t : CaseTest, Plain.caseTest t = true →
    Decodes Decoder.caseTest? (Encoder.caseTest t) t
  | .values es, h => .node fun depth hdes =>
    congrArg (Option.map CaseTest.values) (decodes_exprs es h depth hdes)
  | .relational op e, h => .nodeParts fun depth ⟨_, hde, _⟩ =>
    bind_parts (by decide) rfl <|
      bind_some (word?_text (BinaryOp.ofWord?_word op) depth) <|
      bind_some (decodes_expr e h depth hde) rfl
  | .otherwise, _ => by
    intro depth _
    cases depth <;> rfl

/-- The document of the plain branches of a SELECT decodes to them. -/
theorem decodes_caseBranches : ∀ bs : List CaseBranch, Plain.caseBranches bs = true →
    Decodes Decoder.caseBranches? (.arr (Encoder.caseBranches bs)) bs
  | [], _ => .nil fun _ _ => rfl
  | ⟨test, body⟩ :: rest, h =>
    have ⟨hfirst, hrest⟩ := Bool.and_eq_true_iff.mp h
    have ⟨htest, hbody⟩ := Bool.and_eq_true_iff.mp hfirst
    have hfirst : Decodes Decoder.caseBranch?
        (Encoder.parts [("test", some (Encoder.caseTest test)),
          ("body", some (.arr (Encoder.stmts body)))]) ⟨test, body⟩ :=
      .parts fun depth ⟨hdtest, hdbody, _⟩ => bind_parts (by decide) rfl <|
        bind_some (decodes_caseTest test htest depth hdtest) <|
        bind_some (decodes_stmts body hbody depth hdbody) rfl
    .cons (fun _ _ => rfl) hfirst (decodes_caseBranches rest hrest)

/-- **The document of a plain statement decodes to the statement.** -/
theorem decodes_stmt : ∀ s : Stmt, Plain.stmt s = true → Decodes Decoder.stmt? (Encoder.stmt s) s
  | .optionExplicit, _ | .breakLoop, _ | .continueLoop, _ | .breakpoint, _ => by
    intro depth _
    cases depth <;> rfl
  | .locals bs, h => .node fun depth hdbs =>
    congrArg (Option.map Stmt.locals) (decodes_binders (by decide) bs h depth hdbs)
  | .globals names, _ => .node fun depth hdnames =>
    congrArg (Option.map Stmt.globals) (decodes_idents names depth hdnames)
  | .define name e, h | .assign name e, h | .constant name e, h =>
    .nodeParts fun depth ⟨_, hde, _⟩ => bind_parts (by decide) rfl <|
      bind_some (ident?_ident name) <|
      bind_some (decodes_expr e h depth hde) rfl
  | .assignIndex name es e, h => .nodeParts fun depth ⟨_, hdes, hde, _⟩ =>
    have ⟨hes, he⟩ := Bool.and_eq_true_iff.mp h
    bind_parts (by decide) rfl <|
      bind_some (ident?_ident name) <|
      bind_some (decodes_exprs es hes depth hdes) <|
      bind_some (decodes_expr e he depth hde) rfl
  | .assignMember object name e, h => .nodeParts fun depth ⟨hdobject, _, hde, _⟩ =>
    have ⟨hobject, he⟩ := Bool.and_eq_true_iff.mp h
    bind_parts (by decide) rfl <|
      bind_some (decodes_expr object hobject depth hdobject) <|
      bind_some (ident?_ident name) <|
      bind_some (decodes_expr e he depth hde) rfl
  | .destructure names e, h => .nodeParts fun depth ⟨hdnames, hde, _⟩ =>
    bind_parts (by decide) rfl <|
      bind_some (decodes_idents names depth hdnames) <|
      bind_some (decodes_expr e h depth hde) rfl
  | .print e, h => .node fun depth hde =>
    congrArg (Option.map Stmt.print) (decodes_expr e h depth hde)
  | .expr e, h => .node fun depth hde =>
    congrArg (Option.map Stmt.expr) (decodes_expr e h depth hde)
  | .call name args named, h => .nodeParts fun depth ⟨_, hdargs, hdnamed, _⟩ =>
    have ⟨hargs, hnamed⟩ := Bool.and_eq_true_iff.mp h
    bind_parts (by decide) rfl <|
      bind_some (ident?_ident name) <|
      bind_some (decodes_exprs args hargs depth hdargs) <|
      bind_some (default?_namedArgs? (decodes_namedArgs named hnamed) hdnamed) rfl
  | .branch branches otherwise, h => .nodeParts fun depth ⟨hdbranches, hdotherwise, _⟩ =>
    have ⟨hbranches, hotherwise⟩ := Bool.and_eq_true_iff.mp h
    bind_parts (by decide) rfl <|
      bind_some (decodes_guardeds branches hbranches depth hdbranches) <|
      bind_some (optional?_stmts? otherwise hotherwise depth hdotherwise) rfl
  | .whileLoop cond body, h => .nodeParts fun depth ⟨hdcond, hdbody, _⟩ =>
    have ⟨hcond, hbody⟩ := Bool.and_eq_true_iff.mp h
    bind_parts (by decide) rfl <|
      bind_some (decodes_expr cond hcond depth hdcond) <|
      bind_some (decodes_stmts body hbody depth hdbody) rfl
  | .forLoop var first last step body, h =>
    .nodeParts fun depth ⟨_, hdfirst, hdlast, hdstep, hdbody, _⟩ =>
    have ⟨hhead, hbody⟩ := Bool.and_eq_true_iff.mp h
    have ⟨hends, hstep⟩ := Bool.and_eq_true_iff.mp hhead
    have ⟨hfirst, hlast⟩ := Bool.and_eq_true_iff.mp hends
    bind_parts (by decide) rfl <|
      bind_some (ident?_ident var) <|
      bind_some (decodes_expr first hfirst depth hdfirst) <|
      bind_some (decodes_expr last hlast depth hdlast) <|
      bind_some (optional?_expr? step hstep depth hdstep) <|
      bind_some (decodes_stmts body hbody depth hdbody) rfl
  | .forEach var e body, h => .nodeParts fun depth ⟨_, hde, hdbody, _⟩ =>
    have ⟨he, hbody⟩ := Bool.and_eq_true_iff.mp h
    bind_parts (by decide) rfl <|
      bind_some (ident?_ident var) <|
      bind_some (decodes_expr e he depth hde) <|
      bind_some (decodes_stmts body hbody depth hdbody) rfl
  | .doLoop body, h => .nodeParts fun depth ⟨hdbody, _⟩ =>
    bind_parts (by decide) rfl <|
      bind_some (decodes_stmts body h depth hdbody) rfl
  | .repeatLoop body cond, h => .nodeParts fun depth ⟨hdbody, hdcond, _⟩ =>
    have ⟨hbody, hcond⟩ := Bool.and_eq_true_iff.mp h
    bind_parts (by decide) rfl <|
      bind_some (decodes_stmts body hbody depth hdbody) <|
      bind_some (decodes_expr cond hcond depth hdcond) rfl
  | .select e branches, h => .nodeParts fun depth ⟨hde, hdbranches, _⟩ =>
    have ⟨he, hbranches⟩ := Bool.and_eq_true_iff.mp h
    bind_parts (by decide) rfl <|
      bind_some (decodes_expr e he depth hde) <|
      bind_some (decodes_caseBranches branches hbranches depth hdbranches) rfl
  | .returnWith none, _ => .node fun _ _ => rfl
  | .returnWith (some e), h => .node fun depth hde =>
    congrArg (Option.map Stmt.returnWith)
      (optional?_some (expr_ne_null e) (decodes_expr e h depth hde))
  | .exit target, _ => .node fun _ _ =>
    congrArg (Option.map Stmt.exit) (exitTarget?_text target)
  | .dim name es, h | .redim name es _, h => .nodeParts fun depth ⟨_, hdes, _⟩ =>
    bind_parts (by decide) rfl <|
      bind_some (ident?_ident name) <|
      bind_some (decodes_exprs es h depth hdes) rfl
  | .procedure p, h => decodes_stmt_procedure (decodes_procedure p h)
  | .typeBlock d, h => .node fun depth hd =>
    congrArg (Option.map Stmt.typeBlock) (decodes_typeDecl d h depth hd)
  | .enum name members, h => .nodeParts fun depth ⟨_, hdmembers, _⟩ =>
    bind_parts (by decide) rfl <|
      bind_some (ident?_ident name) <|
      bind_some (decodes_binders (by decide) members h depth hdmembers) rfl
  | .attempt body handler cleanup, h => .nodeParts fun depth ⟨hdbody, hdhandler, hdcleanup, _⟩ =>
    have ⟨hrest, hcleanup⟩ := Bool.and_eq_true_iff.mp h
    have ⟨hbody, hhandler⟩ := Bool.and_eq_true_iff.mp hrest
    bind_parts (by decide) rfl <|
      bind_some (decodes_stmts body hbody depth hdbody) <|
      bind_some (optional?_handler? handler hhandler depth hdhandler) <|
      bind_some (optional?_stmts? cleanup hcleanup depth hdcleanup) rfl
  | .raise e, h => .node fun depth hde =>
    congrArg (Option.map Stmt.raise) (decodes_expr e h depth hde)
  | .assertion e message, h => .nodeParts fun depth ⟨hde, hdmessage, _⟩ =>
    have ⟨he, hmessage⟩ := Bool.and_eq_true_iff.mp h
    bind_parts (by decide) rfl <|
      bind_some (decodes_expr e he depth hde) <|
      bind_some (optional?_expr? message hmessage depth hdmessage) rfl
  | .using name e body, h => .nodeParts fun depth ⟨_, hde, hdbody, _⟩ =>
    have ⟨he, hbody⟩ := Bool.and_eq_true_iff.mp h
    bind_parts (by decide) rfl <|
      bind_some (ident?_ident name) <|
      bind_some (decodes_expr e he depth hde) <|
      bind_some (decodes_stmts body hbody depth hdbody) rfl
  | .debugPrint e, h => .node fun depth hde =>
    congrArg (Option.map Stmt.debugPrint) (decodes_expr e h depth hde)

theorem decodes_stmts : ∀ ss : List Stmt, Plain.stmts ss = true →
    Decodes Decoder.stmts? (.arr (Encoder.stmts ss)) ss
  | [], _ => .nil fun _ _ => rfl
  | s :: ss, h =>
    have ⟨hs, hss⟩ := Bool.and_eq_true_iff.mp h
    .cons (fun _ _ => rfl) (decodes_stmt s hs) (decodes_stmts ss hss)

/-- An optional block comes back, and so does the lack of one. -/
theorem optional?_stmts? : ∀ ss : Option (List Stmt), Plain.stmts? ss = true → ∀ depth,
    Part (·.nesting ≤ depth) (Encoder.stmts? ss) →
    optional? (Decoder.stmts? depth) (Encoder.stmts? ss) = some ss
  | none, _, _, _ => rfl
  | some body, h, depth, hd => optional?_some nofun (decodes_stmts body h depth hd)

end

end BasicScript
