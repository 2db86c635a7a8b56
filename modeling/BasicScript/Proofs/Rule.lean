import BasicScript.Interpreter

/-!
# Rules about code

A *rule* says which statements may stand where.  A place knows the body that it belongs to and the
loops around it inside that body; a body of its own starts with every SUB, FUNCTION, method and
lambda.  Code obeys a rule if every statement in it does, however deep it lies, in the bodies of
lambdas and methods too.

* `Rule.expr`, `Rule.stmt` and their companions decide whether code obeys a rule.
* `Machine.Loads`: every routine that a machine has loaded has some property; loading keeps that up
  (`Machine.Loads.load`, `Machine.Loads.loadType`, `Machine.Loads.learn`).
* `Machine.Obeys`: everything that a machine has loaded obeys a rule.
* `Rule.stmts_relabel`: giving out labels does not change what code obeys.
-/

namespace BasicScript

/-- The kinds of bodies: the top level of a program, a SUB, and a FUNCTION or lambda. -/
inductive Body where
  | main | sub | function
deriving DecidableEq

/-- Where a statement stands. -/
structure Place where
  body : Body
  /-- The kinds of the loops around it inside its body, the innermost first. -/
  loops : List ExitTarget := []

/-- A place inside one loop more. -/
def Place.inside (p : Place) (kind : ExitTarget) : Place :=
  { p with loops := kind :: p.loops }

/-- What a statement is, apart from its parts. -/
inductive Shape where
  | optionExplicit
  | globals (names : List Ident)
  /-- A loop that nothing bounds: FOR, WHILE, DO or REPEAT. -/
  | loop (kind : ExitTarget)
  | breakLoop
  | continueLoop
  | exit (target : ExitTarget)
  /-- TRY, with the variable of its CATCH. -/
  | attempt (caught? : Option Ident)
  | debugPrint
  | plain

/-- The shape of a statement. -/
def Stmt.shape : Stmt → Shape
  | .optionExplicit => .optionExplicit
  | .globals names => .globals names
  | .whileLoop _ _ => .loop .whileLoop
  | .forLoop _ _ _ _ _ => .loop .forLoop
  | .doLoop _ => .loop .doLoop
  | .repeatLoop _ _ => .loop .repeatLoop
  | .breakLoop => .breakLoop
  | .continueLoop => .continueLoop
  | .exit target => .exit target
  | .attempt _ (some ⟨x, _⟩) _ => .attempt x
  | .attempt _ none _ => .attempt none
  | .debugPrint _ => .debugPrint
  | _ => .plain

/-- Which statements may stand where. -/
structure Rule where
  allows : Place → Shape → Bool

namespace Rule

mutual

/-- An expression obeys a rule. -/
def expr (r : Rule) : Expr → Bool
  | .nil | .bool _ | .int _ | .float _ | .str _ | .var _ => true
  | .unary _ e => r.expr e
  | .binary _ a b => r.expr a && r.expr b
  | .index e es => r.expr e && r.exprs es
  | .call _ args named => r.exprs args && r.namedArgs named
  | .member e _ => r.expr e
  | .methodCall e _ args => r.expr e && r.exprs args
  | .array items => r.exprs items
  | .map entries => r.pairs entries
  | .lambda _ routine => r.routine .function routine
  | .interpolated parts => r.exprs parts
  | .range a b => r.expr a && r.expr b
  | .comprehension item _ source filter => r.expr item && r.expr source && r.expr? filter
  | .choose subject arms otherwise => r.expr subject && r.pairs arms && r.expr? otherwise
  | .safeMember e _ => r.expr e
  | .safeIndex e i => r.expr e && r.expr i
  | .coalesce a b => r.expr a && r.expr b
  | .spread e => r.expr e
  | .tuple items => r.exprs items
  | .typeOf e => r.expr e
  | .properties e => r.expr e
  | .methods e => r.expr e
  | .superCall _ args => r.exprs args

/-- An optional expression obeys a rule. -/
def expr? (r : Rule) : Option Expr → Bool
  | none => true
  | some e => r.expr e

/-- All expressions of a list obey a rule. -/
def exprs (r : Rule) : List Expr → Bool
  | [] => true
  | e :: es => r.expr e && r.exprs es

/-- All expressions of a list of pairs obey a rule. -/
def pairs (r : Rule) : List (Expr × Expr) → Bool
  | [] => true
  | (a, b) :: rest => r.expr a && r.expr b && r.pairs rest

/-- All named arguments obey a rule. -/
def namedArgs (r : Rule) : List (Ident × Expr) → Bool
  | [] => true
  | (_, e) :: rest => r.expr e && r.namedArgs rest

/-- All expressions of a list of binders obey a rule. -/
def binders (r : Rule) : List Binder → Bool
  | [] => true
  | ⟨_, init⟩ :: rest => r.expr? init && r.binders rest

/-- The parameters and the body of a routine obey a rule. -/
def routine (r : Rule) (b : Body) : Routine → Bool
  | ⟨params, body⟩ => r.binders params && r.stmts ⟨b, []⟩ body

/-- A procedure obeys a rule. -/
def procedure (r : Rule) : Procedure → Bool
  | .sub _ routine => r.routine .sub routine
  | .function _ _ routine => r.routine .function routine

/-- All procedures of a list obey a rule. -/
def procedures (r : Rule) : List Procedure → Bool
  | [] => true
  | p :: ps => r.procedure p && r.procedures ps

/-- The methods of a type obey a rule. -/
def typeDecl (r : Rule) : TypeDecl → Bool
  | ⟨_, _, _, methods⟩ => r.procedures methods

/-- All guarded bodies obey a rule. -/
def guardeds (r : Rule) (p : Place) : List Guarded → Bool
  | [] => true
  | ⟨cond, body⟩ :: rest => r.expr cond && r.stmts p body && r.guardeds p rest

/-- An optional handler obeys a rule. -/
def handler? (r : Rule) (p : Place) : Option Handler → Bool
  | none => true
  | some ⟨_, body⟩ => r.stmts p body

/-- What a CASE matches obeys a rule. -/
def caseTest (r : Rule) : CaseTest → Bool
  | .values es => r.exprs es
  | .relational _ e => r.expr e
  | .otherwise => true

/-- All CASEs obey a rule. -/
def caseBranches (r : Rule) (p : Place) : List CaseBranch → Bool
  | [] => true
  | ⟨test, body⟩ :: rest => r.caseTest test && r.stmts p body && r.caseBranches p rest

/-- The expressions and bodies inside a statement obey a rule. -/
def parts (r : Rule) (p : Place) : Stmt → Bool
  | .optionExplicit | .globals _ | .breakLoop | .continueLoop | .exit _ | .breakpoint => true
  | .locals bs => r.binders bs
  | .define _ e | .assign _ e | .constant _ e => r.expr e
  | .assignIndex _ es e => r.exprs es && r.expr e
  | .assignMember object _ e => r.expr object && r.expr e
  | .destructure _ e | .print e | .expr e | .raise e | .debugPrint e => r.expr e
  | .call _ args named => r.exprs args && r.namedArgs named
  | .branch branches otherwise => r.guardeds p branches && r.stmts? p otherwise
  | .whileLoop cond body => r.expr cond && r.stmts (p.inside .whileLoop) body
  | .forLoop _ first last step body =>
    r.expr first && r.expr last && r.expr? step && r.stmts (p.inside .forLoop) body
  | .forEach _ e body => r.expr e && r.stmts (p.inside .forLoop) body
  | .doLoop body => r.stmts (p.inside .doLoop) body
  | .repeatLoop body cond => r.stmts (p.inside .repeatLoop) body && r.expr cond
  | .select e branches => r.expr e && r.caseBranches p branches
  | .returnWith e => r.expr? e
  | .dim _ es | .redim _ es _ => r.exprs es
  | .procedure q => r.procedure q
  | .typeBlock d => r.typeDecl d
  | .enum _ members => r.binders members
  | .attempt body handler cleanup =>
    r.stmts p body && r.handler? p handler && r.stmts? p cleanup
  | .assertion e message => r.expr e && r.expr? message
  | .using _ e body => r.expr e && r.stmts p body

/-- All statements of a list obey a rule at a place. -/
def stmts (r : Rule) (p : Place) : List Stmt → Bool
  | [] => true
  | s :: ss => r.allows p s.shape && r.parts p s && r.stmts p ss

/-- An optional body obeys a rule at a place. -/
def stmts? (r : Rule) (p : Place) : Option (List Stmt) → Bool
  | none => true
  | some body => r.stmts p body

end

/-- A statement obeys a rule at a place. -/
def stmt (r : Rule) (p : Place) (s : Stmt) : Bool :=
  r.allows p s.shape && r.parts p s

/-- A program obeys a rule. -/
def program (r : Rule) (p : Program) : Bool :=
  r.stmts ⟨.main, []⟩ p.statements

/-! ## Labels -/

private theorem both {a a' b b' : Bool} (ha : a = a') (hb : b = b') : (a && b) = (a' && b') := by
  rw [ha, hb]

/-- Giving out labels keeps the shape of a statement. -/
theorem shape_relabel (n : Nat) (s : Stmt) : (Labelling.stmt s n).1.shape = s.shape := by
  cases s with
  | attempt body handler cleanup => rcases handler with _ | ⟨x, b⟩ <;> rfl
  | _ => rfl

-- One case for each constructor: a rule looks at shapes, and a label changes none of them.
mutual

/-- An expression obeys the same rules after it was given labels. -/
theorem expr_relabel (r : Rule) (n : Nat) : ∀ e : Expr, r.expr (Labelling.expr e n).1 = r.expr e
  | .nil | .bool _ | .int _ | .float _ | .str _ | .var _ => rfl
  | .unary _ e | .member e _ | .safeMember e _ | .spread e | .typeOf e | .properties e
  | .methods e => expr_relabel r n e
  | .binary _ a b | .range a b | .safeIndex a b | .coalesce a b =>
    both (expr_relabel r n a) (expr_relabel r _ b)
  | .index e es | .methodCall e _ es => both (expr_relabel r n e) (exprs_relabel r _ es)
  | .call _ args named => both (exprs_relabel r n args) (namedArgs_relabel r _ named)
  | .array es | .interpolated es | .tuple es | .superCall _ es => exprs_relabel r n es
  | .map entries => pairs_relabel r n entries
  | .lambda _ q => routine_relabel r _ .function q
  | .comprehension item _ source filter =>
    both (both (expr_relabel r n item) (expr_relabel r _ source))
      (expr?_relabel r _ filter)
  | .choose subject arms otherwise =>
    both (both (expr_relabel r n subject) (pairs_relabel r _ arms))
      (expr?_relabel r _ otherwise)

theorem expr?_relabel (r : Rule) (n : Nat) :
    ∀ e : Option Expr, r.expr? (Labelling.expr? e n).1 = r.expr? e
  | none => rfl
  | some e => expr_relabel r n e

theorem exprs_relabel (r : Rule) (n : Nat) :
    ∀ es : List Expr, r.exprs (Labelling.exprs es n).1 = r.exprs es
  | [] => rfl
  | e :: es => both (expr_relabel r n e) (exprs_relabel r _ es)

theorem pairs_relabel (r : Rule) (n : Nat) :
    ∀ es : List (Expr × Expr), r.pairs (Labelling.pairs es n).1 = r.pairs es
  | [] => rfl
  | (a, b) :: rest =>
    both (both (expr_relabel r n a) (expr_relabel r _ b))
      (pairs_relabel r _ rest)

theorem namedArgs_relabel (r : Rule) (n : Nat) :
    ∀ es : List (Ident × Expr), r.namedArgs (Labelling.namedArgs es n).1 = r.namedArgs es
  | [] => rfl
  | (_, e) :: rest => both (expr_relabel r n e) (namedArgs_relabel r _ rest)

/-- Parameters obey the same rules with other labels in their defaults. -/
theorem binders_relabel (r : Rule) (n : Nat) :
    ∀ bs : List Binder, r.binders (Labelling.binders bs n).1 = r.binders bs
  | [] => rfl
  | ⟨_, init⟩ :: rest => both (expr?_relabel r n init) (binders_relabel r _ rest)

/-- A body with its parameters obeys the same rules with other labels. -/
theorem routine_relabel (r : Rule) (n : Nat) (b : Body) :
    ∀ q : Routine, r.routine b (Labelling.routine q n).1 = r.routine b q
  | ⟨params, body⟩ => both (binders_relabel r n params) (stmts_relabel r _ _ body)

/-- A SUB or FUNCTION obeys the same rules with other labels. -/
theorem procedure_relabel (r : Rule) (n : Nat) :
    ∀ q : Procedure, r.procedure (Labelling.procedure q n).1 = r.procedure q
  | .sub _ q => routine_relabel r n .sub q
  | .function _ _ q => routine_relabel r n .function q

theorem procedures_relabel (r : Rule) (n : Nat) :
    ∀ qs : List Procedure, r.procedures (Labelling.procedures qs n).1 = r.procedures qs
  | [] => rfl
  | q :: qs => both (procedure_relabel r n q) (procedures_relabel r _ qs)

/-- A type obeys the same rules with other labels in its methods. -/
theorem typeDecl_relabel (r : Rule) (n : Nat) :
    ∀ d : TypeDecl, r.typeDecl (Labelling.typeDecl d n).1 = r.typeDecl d
  | ⟨_, _, _, methods⟩ => procedures_relabel r n methods

theorem guardeds_relabel (r : Rule) (n : Nat) (p : Place) :
    ∀ gs : List Guarded, r.guardeds p (Labelling.guardeds gs n).1 = r.guardeds p gs
  | [] => rfl
  | ⟨cond, body⟩ :: rest =>
    both (both (expr_relabel r n cond) (stmts_relabel r _ p body))
      (guardeds_relabel r _ p rest)

theorem handler?_relabel (r : Rule) (n : Nat) (p : Place) :
    ∀ h : Option Handler, r.handler? p (Labelling.handler? h n).1 = r.handler? p h
  | none => rfl
  | some ⟨_, body⟩ => stmts_relabel r n p body

theorem caseTest_relabel (r : Rule) (n : Nat) :
    ∀ t : CaseTest, r.caseTest (Labelling.caseTest t n).1 = r.caseTest t
  | .values es => exprs_relabel r n es
  | .relational _ e => expr_relabel r n e
  | .otherwise => rfl

theorem caseBranches_relabel (r : Rule) (n : Nat) (p : Place) :
    ∀ bs : List CaseBranch, r.caseBranches p (Labelling.caseBranches bs n).1 = r.caseBranches p bs
  | [] => rfl
  | ⟨test, body⟩ :: rest =>
    both (both (caseTest_relabel r n test) (stmts_relabel r _ p body))
      (caseBranches_relabel r _ p rest)

/-- The parts of a statement obey the same rules with other labels. -/
theorem parts_relabel (r : Rule) (n : Nat) (p : Place) :
    ∀ s : Stmt, r.parts p (Labelling.stmt s n).1 = r.parts p s
  | .optionExplicit | .globals _ | .breakLoop | .continueLoop | .exit _ | .breakpoint => rfl
  | .locals bs | .enum _ bs => binders_relabel r n bs
  | .define _ e | .assign _ e | .constant _ e | .destructure _ e | .print e | .expr e | .raise e
  | .debugPrint e => expr_relabel r n e
  | .assignIndex _ es e => both (exprs_relabel r n es) (expr_relabel r _ e)
  | .assignMember object _ e => both (expr_relabel r n object) (expr_relabel r _ e)
  | .call _ args named => both (exprs_relabel r n args) (namedArgs_relabel r _ named)
  | .branch branches otherwise =>
    both (guardeds_relabel r n p branches) (stmts?_relabel r _ p otherwise)
  | .whileLoop cond body =>
    both (expr_relabel r n cond) (stmts_relabel r _ (p.inside .whileLoop) body)
  | .forLoop _ first last step body =>
    both (both (both (expr_relabel r n first) (expr_relabel r _ last))
      (expr?_relabel r _ step)) (stmts_relabel r _ (p.inside .forLoop) body)
  | .forEach _ e body =>
    both (expr_relabel r n e) (stmts_relabel r _ (p.inside .forLoop) body)
  | .doLoop body => stmts_relabel r n (p.inside .doLoop) body
  | .repeatLoop body cond =>
    both (stmts_relabel r n (p.inside .repeatLoop) body) (expr_relabel r _ cond)
  | .select e branches => both (expr_relabel r n e) (caseBranches_relabel r _ p branches)
  | .returnWith e => expr?_relabel r n e
  | .dim _ es | .redim _ es _ => exprs_relabel r n es
  | .procedure q => procedure_relabel r n q
  | .typeBlock d => typeDecl_relabel r n d
  | .attempt body handler cleanup =>
    both (both (stmts_relabel r n p body) (handler?_relabel r _ p handler))
      (stmts?_relabel r _ p cleanup)
  | .assertion e message => both (expr_relabel r n e) (expr?_relabel r _ message)
  | .using _ e body => both (expr_relabel r n e) (stmts_relabel r _ p body)

/-- Statements obey the same rules after they were given labels. -/
theorem stmts_relabel (r : Rule) (n : Nat) (p : Place) :
    ∀ ss : List Stmt, r.stmts p (Labelling.stmts ss n).1 = r.stmts p ss
  | [] => rfl
  | s :: ss =>
    both (both (congrArg (r.allows p) (shape_relabel n s))
      (parts_relabel r n p s)) (stmts_relabel r _ p ss)

theorem stmts?_relabel (r : Rule) (n : Nat) (p : Place) :
    ∀ ss : Option (List Stmt), r.stmts? p (Labelling.stmts? ss n).1 = r.stmts? p ss
  | none => rfl
  | some body => stmts_relabel r n p body
end

/-- A program obeys the same rules after it was given labels. -/
theorem program_relabel (r : Rule) (p : Program) (n : Nat) :
    r.program (p.relabel n).1 = r.program p :=
  stmts_relabel r n _ p.statements

/-! ## Rules that forbid nothing -/

private theorem and_of {a b : Bool} (ha : a = true) (hb : b = true) : (a && b) = true := by
  rw [ha, hb, Bool.and_self]

/-- A rule allows every statement everywhere. -/
def Lax (r : Rule) : Prop :=
  ∀ p s, r.allows p s = true

namespace Lax

variable {r : Rule}

mutual

/-- Every expression obeys a rule that forbids nothing. -/
theorem expr (h : r.Lax) : ∀ e : Expr, r.expr e = true
  | .nil | .bool _ | .int _ | .float _ | .str _ | .var _ => rfl
  | .unary _ e | .member e _ | .safeMember e _ | .spread e | .typeOf e | .properties e
  | .methods e => expr h e
  | .binary _ a b | .range a b | .safeIndex a b | .coalesce a b => and_of (expr h a) (expr h b)
  | .index e es | .methodCall e _ es => and_of (expr h e) (exprs h es)
  | .call _ args named => and_of (exprs h args) (namedArgs h named)
  | .array es | .interpolated es | .tuple es | .superCall _ es => exprs h es
  | .map entries => pairs h entries
  | .lambda _ q => routine h .function q
  | .comprehension item _ source filter =>
    and_of (and_of (expr h item) (expr h source)) (expr? h filter)
  | .choose subject arms otherwise =>
    and_of (and_of (expr h subject) (pairs h arms)) (expr? h otherwise)

theorem expr? (h : r.Lax) : ∀ e : Option Expr, r.expr? e = true
  | none => rfl
  | some e => expr h e

theorem exprs (h : r.Lax) : ∀ es : List Expr, r.exprs es = true
  | [] => rfl
  | e :: es => and_of (expr h e) (exprs h es)

theorem pairs (h : r.Lax) : ∀ es : List (Expr × Expr), r.pairs es = true
  | [] => rfl
  | (a, b) :: rest => and_of (and_of (expr h a) (expr h b)) (pairs h rest)

theorem namedArgs (h : r.Lax) : ∀ es : List (Ident × Expr), r.namedArgs es = true
  | [] => rfl
  | (_, e) :: rest => and_of (expr h e) (namedArgs h rest)

theorem binders (h : r.Lax) : ∀ bs : List Binder, r.binders bs = true
  | [] => rfl
  | ⟨_, init⟩ :: rest => and_of (expr? h init) (binders h rest)

/-- A body with its parameters obeys a rule that allows everything. -/
theorem routine (h : r.Lax) (b : Body) : ∀ q : Routine, r.routine b q = true
  | ⟨params, body⟩ => and_of (binders h params) (stmts h _ body)

theorem procedure (h : r.Lax) : ∀ q : Procedure, r.procedure q = true
  | .sub _ q => routine h .sub q
  | .function _ _ q => routine h .function q

theorem procedures (h : r.Lax) : ∀ qs : List Procedure, r.procedures qs = true
  | [] => rfl
  | q :: qs => and_of (procedure h q) (procedures h qs)

/-- A type obeys a rule that allows everything. -/
theorem typeDecl (h : r.Lax) : ∀ d : TypeDecl, r.typeDecl d = true
  | ⟨_, _, _, methods⟩ => procedures h methods

theorem guardeds (h : r.Lax) (p : Place) : ∀ gs : List Guarded, r.guardeds p gs = true
  | [] => rfl
  | ⟨cond, body⟩ :: rest => and_of (and_of (expr h cond) (stmts h p body)) (guardeds h p rest)

theorem handler? (h : r.Lax) (p : Place) : ∀ q : Option Handler, r.handler? p q = true
  | none => rfl
  | some ⟨_, body⟩ => stmts h p body

theorem caseTest (h : r.Lax) : ∀ t : CaseTest, r.caseTest t = true
  | .values es => exprs h es
  | .relational _ e => expr h e
  | .otherwise => rfl

theorem caseBranches (h : r.Lax) (p : Place) : ∀ bs : List CaseBranch, r.caseBranches p bs = true
  | [] => rfl
  | ⟨test, body⟩ :: rest =>
    and_of (and_of (caseTest h test) (stmts h p body)) (caseBranches h p rest)

/-- The parts of a statement obey a rule that allows everything. -/
theorem parts (h : r.Lax) (p : Place) : ∀ s : Stmt, r.parts p s = true
  | .optionExplicit | .globals _ | .breakLoop | .continueLoop | .exit _ | .breakpoint => rfl
  | .locals bs | .enum _ bs => binders h bs
  | .define _ e | .assign _ e | .constant _ e | .destructure _ e | .print e | .expr e | .raise e
  | .debugPrint e => expr h e
  | .assignIndex _ es e => and_of (exprs h es) (expr h e)
  | .assignMember object _ e => and_of (expr h object) (expr h e)
  | .call _ args named => and_of (exprs h args) (namedArgs h named)
  | .branch branches otherwise => and_of (guardeds h p branches) (stmts? h p otherwise)
  | .whileLoop cond body => and_of (expr h cond) (stmts h _ body)
  | .forLoop _ first last step body =>
    and_of (and_of (and_of (expr h first) (expr h last)) (expr? h step)) (stmts h _ body)
  | .forEach _ e body => and_of (expr h e) (stmts h _ body)
  | .doLoop body => stmts h _ body
  | .repeatLoop body cond => and_of (stmts h _ body) (expr h cond)
  | .select e branches => and_of (expr h e) (caseBranches h p branches)
  | .returnWith e => expr? h e
  | .dim _ es | .redim _ es _ => exprs h es
  | .procedure q => procedure h q
  | .typeBlock d => typeDecl h d
  | .attempt body handler cleanup =>
    and_of (and_of (stmts h p body) (handler? h p handler)) (stmts? h p cleanup)
  | .assertion e message => and_of (expr h e) (expr? h message)
  | .using _ e body => and_of (expr h e) (stmts h p body)

theorem stmts (h : r.Lax) (p : Place) : ∀ ss : List Stmt, r.stmts p ss = true
  | [] => rfl
  | s :: ss => and_of (and_of (h p s.shape) (parts h p s)) (stmts h p ss)

theorem stmts? (h : r.Lax) (p : Place) : ∀ ss : Option (List Stmt), r.stmts? p ss = true
  | none => rfl
  | some body => stmts h p body

end

/-- Every statement obeys a rule that forbids nothing. -/
theorem stmt (h : r.Lax) (p : Place) (s : Stmt) : r.stmt p s = true :=
  and_of (h p s.shape) (h.parts p s)

end Lax

/-- Each of a list of expressions obeys what all of them obey. -/
theorem expr_of_mem_exprs {r : Rule} {es : List Expr} (h : r.exprs es) : ∀ e ∈ es, r.expr e := by
  induction es with
  | nil => intro e he; cases he
  | cons a rest ih =>
    rw [Rule.exprs, Bool.and_eq_true] at h
    intro e he
    rcases List.mem_cons.mp he with rfl | hrest
    · exact h.1
    · exact ih h.2 e hrest

/-- The indices on the way to a member obey what the whole expression obeys. -/
theorem expr_of_assignTarget? {r : Rule} {object : Expr} {x : Ident} {path : List TargetStep}
    (htarget : assignTarget? object = some (x, path)) (h : r.expr object) :
    ∀ i, .index i ∈ path → r.expr i := by
  intro i hi
  fun_induction assignTarget? object generalizing x path with
  | case1 name =>
    cases htarget
    cases hi
  | case2 object name ih =>
    obtain ⟨⟨y, inner⟩, hinner, eq⟩ := Option.map_eq_some_iff.mp htarget
    cases eq
    rcases List.mem_append.mp hi with hi | hi
    · exact ih hinner h hi
    · cases List.mem_singleton.mp hi
  | case3 target is ih =>
    rw [Rule.expr, Bool.and_eq_true] at h
    obtain ⟨⟨y, inner⟩, hinner, eq⟩ := Option.map_eq_some_iff.mp htarget
    cases eq
    rcases List.mem_append.mp hi with hi | hi
    · exact ih hinner h.1 hi
    · obtain ⟨e, he, eq⟩ := List.mem_map.mp hi
      cases eq
      exact expr_of_mem_exprs h.2 i he
  | case4 => cases htarget

/-- The body of each of a list of CASEs obeys what all of them obey. -/
theorem stmts_of_mem_caseBranches {r : Rule} {p : Place} {bs : List CaseBranch}
    (h : r.caseBranches p bs) : ∀ b ∈ bs, r.stmts p b.body := by
  induction bs with
  | nil => intro b hb; cases hb
  | cons a rest ih =>
    obtain ⟨test, body⟩ := a
    simp only [Rule.caseBranches, Bool.and_eq_true] at h
    intro b hb
    rcases List.mem_cons.mp hb with rfl | hrest
    · exact h.1.2
    · exact ih h.2 b hrest

/-- The first value of each of a list of binders obeys what all of them obey. -/
theorem expr?_of_mem_binders {r : Rule} {bs : List Binder} (h : r.binders bs) :
    ∀ b ∈ bs, r.expr? b.init := by
  induction bs with
  | nil => intro b hb; cases hb
  | cons a rest ih =>
    obtain ⟨name, init⟩ := a
    rw [Rule.binders, Bool.and_eq_true] at h
    intro b hb
    rcases List.mem_cons.mp hb with rfl | hb
    · exact h.1
    · exact ih h.2 b hb

end Rule

/-! ## Loaded code -/

/-- An entry of a table after an insertion is the new one or was there before. -/
theorem Table.get?_insert_eq_some {α : Type} {t : Table α} {k name : String} {v w : α}
    (h : Table.get? (Table.insert t k v) name = some w) : v = w ∨ Table.get? t name = some w := by
  by_cases hk : k = name
  · subst hk
    rw [Table.get?_insert_self] at h
    exact Or.inl (Option.some.inj h)
  · rw [Table.get?_insert_of_ne t v hk] at h
    exact Or.inr h

/-- The routine of a procedure has a property, given the kind of its body. -/
def Procedure.Has (P : Body → Routine → Prop) : Procedure → Prop
  | .sub _ q => P .sub q
  | .function _ _ q => P .function q

/-- Every procedure that a statement declares has a property in the form in which it is loaded. -/
def Stmt.Declares (P : Body → Routine → Prop) : Stmt → Prop
  | .procedure q => q.Has P
  | .typeBlock d => ∀ q ∈ d.methods, (Machine.asMethod q).Has P
  | _ => True

/-- Every routine that a machine has loaded has a property, given the kind of its body. -/
structure Machine.Loads (m : Machine) (P : Body → Routine → Prop) : Prop where
  subs : ∀ name q, Table.get? m.subs name = some q → P .sub q
  functions : ∀ name f, Table.get? m.functions name = some f → P .function f.routine
  lambdas : ∀ entry ∈ m.lambdas, P .function entry.2

namespace Machine.Loads

variable {m : Machine} {P : Body → Routine → Prop}

/-- A procedure that has the property is loaded. -/
theorem loadProcedure (h : m.Loads P) (name : String) {q : Procedure} (hq : q.Has P) :
    (m.loadProcedure name q).Loads P := by
  cases q with
  | sub _ routine =>
    refine ⟨?_, h.functions, h.lambdas⟩
    intro name' q' h'
    rcases Table.get?_insert_eq_some h' with rfl | h'
    · exact hq
    · exact h.subs name' q' h'
  | function _ result routine =>
    refine ⟨h.subs, ?_, h.lambdas⟩
    intro name' f h'
    rcases Table.get?_insert_eq_some h' with rfl | h'
    · exact hq
    · exact h.functions name' f h'

/-- A type is loaded whose methods have the property, each with `THIS` in front of its
parameters. -/
theorem loadType (h : m.Loads P) {d : TypeDecl}
    (hd : ∀ q ∈ d.methods, (Machine.asMethod q).Has P) : (m.loadType d).Loads P := by
  unfold Machine.loadType
  generalize hm₀ : ({ m with types := _ } : Machine) = m₀
  have hstart : m₀.Loads P := by
    rw [← hm₀]
    exact ⟨h.subs, h.functions, h.lambdas⟩
  generalize d.methods = qs at hd
  clear hm₀
  induction qs generalizing m₀ with
  | nil => exact hstart
  | cons q qs ih =>
    have loaded := hstart.loadProcedure (Text.upper (d.name.name ++ "_" ++ q.name.name))
      (hd q List.mem_cons_self)
    exact ih _ loaded fun q' hq' => hd q' (List.mem_cons_of_mem q hq')

/-- A statement is loaded whose declarations have the property. -/
theorem loadStmt (h : m.Loads P) {s : Stmt} (hs : s.Declares P) : (m.loadStmt s).Loads P := by
  cases s with
  | procedure q => exact h.loadProcedure _ hs
  | typeBlock d => exact h.loadType hs
  | _ => exact h

/-- Loading a program. -/
theorem load (h : m.Loads P) {p : Program} (hp : ∀ s ∈ p.statements, s.Declares P) :
    (m.load p).Loads P := by
  obtain ⟨statements⟩ := p
  change (statements.foldl Machine.loadStmt m).Loads P
  induction statements generalizing m with
  | nil => exact h
  | cons s ss ih =>
    have loaded := h.loadStmt (hp s List.mem_cons_self)
    exact ih loaded fun s' hs' => hp s' (List.mem_cons_of_mem s hs')

/-- Remembering a lambda. -/
theorem learn (h : m.Loads P) (label : Nat) {q : Routine} (hq : P .function q) :
    (m.learn label q).Loads P := by
  unfold Machine.learn
  split
  · exact h
  · refine ⟨h.subs, h.functions, ?_⟩
    intro entry hentry
    rcases List.mem_cons.mp hentry with rfl | hentry
    · exact hq
    · exact h.lambdas entry hentry

/-- The lambda that a value refers to has been loaded. -/
theorem lambda? (h : m.Loads P) {fields : Table Value} {q : Routine}
    (hq : m.lambda? fields = some q) : P .function q := by
  unfold Machine.lambda? at hq
  split at hq
  · obtain ⟨entry, hfound, rfl⟩ := Option.map_eq_some_iff.mp hq
    exact h.lambdas entry (List.mem_of_find?_eq_some hfound)
  · cases hq

end Machine.Loads

namespace Rule

variable {r : Rule}

/-- A SUB or FUNCTION that obeys a rule has a body that does. -/
theorem has_of_procedure {q : Procedure} (h : r.procedure q) : q.Has fun b q => r.routine b q := by
  cases q with
  | sub => exact h
  | function => exact h

/-- The object before the parameters of a method has no default, so no rule sees it. -/
theorem procedure_asMethod (r : Rule) (q : Procedure) :
    r.procedure (Machine.asMethod q) = r.procedure q := by
  rcases q with ⟨_, ⟨params, body⟩⟩ | ⟨_, _, ⟨params, body⟩⟩ <;>
    simp [Machine.asMethod, Rule.procedure, Rule.routine, Rule.binders, Rule.expr?]

/-- Each of a list of procedures obeys what all of them obey. -/
theorem procedure_of_mem_procedures {qs : List Procedure} (h : r.procedures qs) :
    ∀ q ∈ qs, r.procedure q := by
  induction qs with
  | nil => intro q hq; cases hq
  | cons a rest ih =>
    rw [Rule.procedures, Bool.and_eq_true] at h
    intro q hq
    rcases List.mem_cons.mp hq with rfl | hq
    · exact h.1
    · exact ih h.2 q hq

/-- The methods of a type obey what the type obeys. -/
theorem has_of_typeDecl {d : TypeDecl} (h : r.typeDecl d) :
    ∀ q ∈ d.methods, (Machine.asMethod q).Has fun b q => r.routine b q := by
  obtain ⟨name, parent, fields, methods⟩ := d
  intro q hq
  apply has_of_procedure
  rw [procedure_asMethod]
  exact procedure_of_mem_procedures h q hq

/-- A statement that obeys a rule declares nothing but bodies that do. -/
theorem declares_of_stmt {p : Place} {s : Stmt} (h : r.stmt p s) :
    s.Declares fun b q => r.routine b q := by
  rw [Rule.stmt, Bool.and_eq_true] at h
  cases s with
  | procedure q => exact has_of_procedure h.2
  | typeBlock d => exact has_of_typeDecl h.2
  | _ => trivial

/-- Each statement of a block obeys what the block obeys. -/
theorem stmt_of_mem_stmts {p : Place} {ss : List Stmt} (h : r.stmts p ss) :
    ∀ s ∈ ss, r.stmt p s := by
  induction ss with
  | nil => intro s hs; cases hs
  | cons a rest ih =>
    rw [Rule.stmts, Bool.and_eq_true] at h
    intro s hs
    rcases List.mem_cons.mp hs with rfl | hs
    · exact h.1
    · exact ih h.2 s hs

end Rule

/-- Everything that a machine has loaded obeys a rule. -/
structure Machine.Obeys (m : Machine) (r : Rule) : Prop where
  subs : ∀ name q, Table.get? m.subs name = some q → r.routine .sub q
  functions : ∀ name f, Table.get? m.functions name = some f → r.routine .function f.routine
  lambdas : ∀ entry ∈ m.lambdas, r.routine .function entry.2

namespace Machine.Obeys

variable {m : Machine} {r : Rule}

/-- What a machine has loaded obeys the rule, routine by routine. -/
theorem loads (h : m.Obeys r) : m.Loads fun b q => r.routine b q :=
  ⟨h.subs, h.functions, h.lambdas⟩

/-- A machine obeys a rule if all routines that it has loaded do. -/
theorem of_loads (h : m.Loads fun b q => r.routine b q) : m.Obeys r :=
  ⟨h.subs, h.functions, h.lambdas⟩

/-- A machine that has loaded nothing obeys every rule. -/
theorem of_empty (hsubs : m.subs = []) (hfunctions : m.functions = []) (hlambdas : m.lambdas = []) :
    m.Obeys r where
  subs := by rw [hsubs]; exact nofun
  functions := by rw [hfunctions]; exact nofun
  lambdas := by rw [hlambdas]; exact nofun

/-- A new machine obeys every rule, for it has loaded nothing. -/
theorem start (r : Rule) (config : Config) : (Machine.start config).Obeys r :=
  of_empty rfl rfl rfl

/-- A machine that obeys a rule loads a procedure that does. -/
theorem loadProcedure (h : m.Obeys r) (name : String) {q : Procedure} (hq : r.procedure q) :
    (m.loadProcedure name q).Obeys r :=
  of_loads (h.loads.loadProcedure name (Rule.has_of_procedure hq))

/-- A machine that obeys a rule loads a type that does. -/
theorem loadType (h : m.Obeys r) {d : TypeDecl} (hd : r.typeDecl d) : (m.loadType d).Obeys r :=
  of_loads (h.loads.loadType (Rule.has_of_typeDecl hd))

/-- Loading a program that obeys a rule. -/
theorem load (h : m.Obeys r) {p : Program} (hp : r.program p) : (m.load p).Obeys r :=
  of_loads (h.loads.load fun s hs => Rule.declares_of_stmt (Rule.stmt_of_mem_stmts hp s hs))

/-- Adopting a program that obeys a rule: it still does with its labels, and so does the machine
once it has loaded it. -/
theorem adopt (h : m.Obeys r) {p : Program} (hp : r.program p) :
    r.program (m.adopt p).1 ∧ ((m.adopt p).2.load (m.adopt p).1).Obeys r := by
  have hadopted : r.program (m.adopt p).1 := by
    rw [← Rule.program_relabel r p m.nextLabel] at hp
    exact hp
  have hm : (m.adopt p).2.Obeys r := ⟨h.subs, h.functions, h.lambdas⟩
  exact ⟨hadopted, hm.load hadopted⟩

/-- Remembering a lambda that obeys a rule. -/
theorem learn (h : m.Obeys r) (label : Nat) {q : Routine} (hq : r.routine .function q) :
    (m.learn label q).Obeys r :=
  of_loads (h.loads.learn label hq)

/-- Whatever a machine has loaded obeys a rule that forbids nothing. -/
theorem of_lax (h : r.Lax) : m.Obeys r :=
  ⟨fun _ q _ => h.routine .sub q, fun _ f _ => h.routine .function f.routine,
    fun entry _ => h.routine .function entry.2⟩

/-- The lambda that a value refers to has been loaded. -/
theorem lambda? (h : m.Obeys r) {fields : Table Value} {q : Routine}
    (hq : m.lambda? fields = some q) : r.routine .function q :=
  h.loads.lambda? hq

end Machine.Obeys

end BasicScript
