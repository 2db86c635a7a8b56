import BasicScript.Proofs.RoundTrip.Filling

/-!
# Documents that are nested too deep

The decoder opens every array and object of a document that the encoder wrote, so it gives nothing
if it may open fewer than the document nests.  This is the converse of `Decodes`, and again there is
one case for each kind of node.

* `Opens decode j`: if the decoder gives anything, it may open as many arrays and objects as `j`
  nests.
* `opens_expr`, `opens_stmt` and their companions: this holds of all documents of trees.
-/

namespace BasicScript

open Decoder

/-- The parts of a node open one object around what they hold. -/
theorem nesting_parts_le {ps : List (String × Option Json)} {depth : Nat}
    (h : Parts (·.nesting ≤ depth) ps) : (Encoder.parts ps).nesting ≤ depth + 1 := by
  induction ps with
  | nil => exact Nat.succ_le_succ (Nat.zero_le depth)
  | cons p ps ih =>
    obtain ⟨name, v⟩ := p
    obtain ⟨hv, hps⟩ := h
    cases v with
    | none => exact ih hps
    | some j =>
      have hj : j.nesting ≤ depth := hv
      have hrest := ih hps
      simp only [Encoder.parts, Json.object, List.filterMap_cons, Option.map_some, List.map_cons,
        Json.nesting, Json.nestingMembers] at hrest ⊢
      omega

/-- The decoder finds the parts of a node as they were written. -/
theorem Yields.bindParts {α : Type} {Q : α → Prop} {names : List String}
    {ps : List (String × Option Json)} {k : List (Option Json) → Option α} (hnames : names.Nodup)
    (hps : ps.map Prod.fst = names) (hk : Yields Q (k (ps.map Prod.snd))) :
    Yields Q (parts? names (Encoder.parts ps) >>= k) := by
  subst hps
  rw [parts?_parts hnames]
  exact hk

/-- A decoder gives something only if it may open as many arrays and objects as the document
nests. -/
def Opens {α : Type} (decode : Nat → Json → Option α) (j : Json) : Prop :=
  ∀ depth, Yields (fun _ => j.nesting ≤ depth) (decode depth j)

namespace Opens

variable {α : Type} {decode : Nat → Json → Option α} {j : Json} {kind : String}
  {ps : List (String × Option Json)}

/-- What opens nothing. -/
theorem flat (h : j.nesting = 0) : Opens decode j :=
  fun depth => .all fun _ => h.trans_le (Nat.zero_le depth)

/-- A node takes one level. -/
theorem node (hzero : decode 0 (Encoder.node kind j) = none)
    (h : ∀ depth, Yields (fun _ => j.nesting ≤ depth) (decode (depth + 1) (Encoder.node kind j))) :
    Opens decode (Encoder.node kind j) := by
  intro depth
  cases depth with
  | zero => exact hzero ▸ .none
  | succ depth =>
    refine (h depth).imp fun _ hj => ?_
    rw [nesting_node]
    exact Nat.succ_le_succ hj

/-- The parts of a node take one level. -/
theorem parts (hzero : decode 0 (Encoder.parts ps) = none)
    (h : ∀ depth, Yields (fun _ => Parts (·.nesting ≤ depth) ps)
      (decode (depth + 1) (Encoder.parts ps))) : Opens decode (Encoder.parts ps) := by
  intro depth
  cases depth with
  | zero => exact hzero ▸ .none
  | succ depth => exact (h depth).imp fun _ hps => nesting_parts_le hps

/-- A node with several parts takes two levels. -/
theorem nodeParts (hzero : decode 0 (Encoder.node kind (Encoder.parts ps)) = none)
    (hone : decode 1 (Encoder.node kind (Encoder.parts ps)) = none)
    (h : ∀ depth, Yields (fun _ => Parts (·.nesting ≤ depth) ps)
      (decode (depth + 2) (Encoder.node kind (Encoder.parts ps)))) :
    Opens decode (Encoder.node kind (Encoder.parts ps)) := by
  refine node hzero fun depth => ?_
  cases depth with
  | zero => exact hone ▸ .none
  | succ depth => exact (h depth).imp fun _ hps => nesting_parts_le hps

variable {decodes : Nat → Json → Option (List α)} {js : List Json}

/-- An array takes one level. -/
theorem nil (hzero : decodes 0 (.arr []) = none) : Opens decodes (.arr []) := by
  intro depth
  cases depth with
  | zero => exact hzero ▸ .none
  | succ depth => exact .all fun _ => Nat.succ_le_succ (Nat.zero_le depth)

/-- An array with one item more. -/
theorem cons (hzero : ∀ items, decodes 0 (.arr items) = none)
    (hdecodes : ∀ depth items, decodes (depth + 1) (.arr items) = items.mapM (decode depth))
    (h : Opens decode j) (hs : Opens decodes (.arr js)) : Opens decodes (.arr (j :: js)) := by
  intro depth
  cases depth with
  | zero => exact hzero _ ▸ .none
  | succ depth =>
    have hrest := hs (depth + 1)
    rw [hdecodes] at hrest ⊢
    rw [List.mapM_cons]
    refine (h depth).bind fun _ hj => hrest.bind fun _ hjs => .some ?_
    simp only [Json.nesting, Json.nestingItems] at hjs ⊢
    omega

/-- An optional part that is present. -/
theorem optional {depth : Nat} (h : Yields (fun _ => j.nesting ≤ depth) (decode depth j)) :
    Yields (fun _ => j.nesting ≤ depth) (optional? (decode depth) (some j)) := by
  unfold optional?
  split
  · contradiction
  · next heq =>
    cases heq
    exact .some (Nat.zero_le depth)
  · next heq =>
    cases heq
    exact .map h

end Opens

/-! ## Lists of names -/

/-- A list of names opens one array. -/
theorem opens_idents (is : List Ident) : Opens idents? (Encoder.idents is) := by
  induction is with
  | nil => exact .nil rfl
  | cons i is ih => exact .cons (fun _ => rfl) (fun _ _ => rfl) (.flat rfl) ih

theorem opens_typeFields (fs : List (Ident × Option Ident)) :
    Opens (list? typeField?) (Encoder.typeFields fs) := by
  induction fs with
  | nil => exact .nil rfl
  | cons f fs ih =>
    refine .cons (fun _ => rfl) (fun _ _ => rfl) (.parts rfl fun depth => ?_) ih
    exact .bindParts (by decide) rfl <| .bind .any fun _ _ => .bind .any fun _ _ =>
      .some ⟨Nat.zero_le depth, part_ident (fun _ => Nat.zero_le depth) f.2, trivial⟩

/-! ## Trees -/

/-- The document of a double opens nothing. -/
theorem nesting_float (x : Float) : (Encoder.float x).nesting = 0 := by
  unfold Encoder.float
  split <;> rfl

/-- Named arguments are a list, unless there are none. -/
theorem opens_named {ps : List (Ident × Expr)}
    (h : Opens Decoder.namedArgs? (.arr (Encoder.namedArgs ps))) (depth : Nat) :
    Yields (fun _ => Part (·.nesting ≤ depth) (Encoder.namedArgs? ps))
      (default? [] (Decoder.namedArgs? depth) (Encoder.namedArgs? ps)) := by
  cases ps with
  | nil => exact .any
  | cons p ps => exact h depth

/-- A procedure as a statement is opened like a method. -/
theorem opens_stmt_procedure {p : Procedure} (h : Opens Decoder.method? (Encoder.procedure p)) :
    Opens Decoder.stmt? (Encoder.procedure p) := by
  intro depth s hs
  cases p with
  | sub name q =>
    obtain ⟨params, body⟩ := q
    cases depth with
    | zero => cases hs
    | succ depth =>
      obtain ⟨p, hp, -⟩ := Option.map_eq_some_iff.mp hs
      exact h (depth + 1) p hp
  | function name result q =>
    obtain ⟨params, body⟩ := q
    cases depth with
    | zero => cases hs
    | succ depth =>
      obtain ⟨p, hp, -⟩ := Option.map_eq_some_iff.mp hs
      exact h (depth + 1) p hp

-- One case for each constructor: `bindParts` finds the parts of a node as they were written, and
-- each `bind` opens one of them.
mutual

/-- **An expression is decoded only if all that its document nests may be opened.** -/
theorem opens_expr : ∀ e : Expr, Opens Decoder.expr? (Encoder.expr e)
  | .nil => .flat rfl
  | .bool _ => .node rfl fun depth => .all fun _ => Nat.zero_le depth
  | .int _ => .node rfl fun depth => .all fun _ => Nat.zero_le depth
  | .float x => .node rfl fun depth => .all fun _ => (nesting_float x).trans_le (Nat.zero_le depth)
  | .str _ => .node rfl fun depth => .all fun _ => Nat.zero_le depth
  | .var _ => .node rfl fun depth => .all fun _ => Nat.zero_le depth
  | .unary _ e => .nodeParts rfl rfl fun depth => .bindParts (by decide) rfl <|
    .bind .any fun _ _ => .bind (opens_expr e depth) fun _ he =>
    .some ⟨Nat.zero_le depth, he, trivial⟩
  | .binary _ a b => .nodeParts rfl rfl fun depth => .bindParts (by decide) rfl <|
    .bind .any fun _ _ => .bind (opens_expr a depth) fun _ ha =>
    .bind (opens_expr b depth) fun _ hb => .some ⟨Nat.zero_le depth, ha, hb, trivial⟩
  | .index e es => .nodeParts rfl rfl fun depth => .bindParts (by decide) rfl <|
    .bind (opens_expr e depth) fun _ he => .bind (opens_exprs es depth) fun _ hes =>
    .some ⟨he, hes, trivial⟩
  | .call _ args named => .nodeParts rfl rfl fun depth => .bindParts (by decide) rfl <|
    .bind .any fun _ _ => .bind (opens_exprs args depth) fun _ hargs =>
    .bind (opens_named (opens_namedArgs named) depth) fun _ hnamed =>
    .some ⟨Nat.zero_le depth, hargs, hnamed, trivial⟩
  | .member e _ | .safeMember e _ => .nodeParts rfl rfl fun depth => .bindParts (by decide) rfl <|
    .bind (opens_expr e depth) fun _ he => .bind .any fun _ _ =>
    .some ⟨he, Nat.zero_le depth, trivial⟩
  | .methodCall e _ args => .nodeParts rfl rfl fun depth => .bindParts (by decide) rfl <|
    .bind (opens_expr e depth) fun _ he => .bind .any fun _ _ =>
    .bind (opens_exprs args depth) fun _ hargs => .some ⟨he, Nat.zero_le depth, hargs, trivial⟩
  | .array es | .interpolated es | .tuple es => .node rfl fun depth => .map (opens_exprs es depth)
  | .map entries => .node rfl fun depth => .map (opens_pairs (by decide) entries depth)
  | .lambda _ ⟨params, body⟩ => .nodeParts rfl rfl fun depth => .bindParts (by decide) rfl <|
    .bind (opens_binders (by decide) params depth) fun _ hparams =>
    .bind (opens_stmts body depth) fun _ hbody => .some ⟨hparams, hbody, trivial⟩
  | .range a b | .safeIndex a b | .coalesce a b => .nodeParts rfl rfl fun depth =>
    .bindParts (by decide) rfl <| .bind (opens_expr a depth) fun _ ha =>
    .bind (opens_expr b depth) fun _ hb => .some ⟨ha, hb, trivial⟩
  | .comprehension item _ source filter => .nodeParts rfl rfl fun depth =>
    .bindParts (by decide) rfl <| .bind (opens_expr item depth) fun _ hitem => .bind .any fun _ _ =>
    .bind (opens_expr source depth) fun _ hsource =>
    .bind (opens_expr? filter depth) fun _ hfilter =>
    .some ⟨hitem, Nat.zero_le depth, hsource, hfilter, trivial⟩
  | .choose e arms otherwise => .nodeParts rfl rfl fun depth => .bindParts (by decide) rfl <|
    .bind (opens_expr e depth) fun _ he => .bind (opens_pairs (by decide) arms depth) fun _ harms =>
    .bind (opens_expr? otherwise depth) fun _ hotherwise => .some ⟨he, harms, hotherwise, trivial⟩
  | .spread e | .typeOf e | .properties e | .methods e => .node rfl fun depth =>
    .map (opens_expr e depth)
  | .superCall _ args => .nodeParts rfl rfl fun depth => .bindParts (by decide) rfl <|
    .bind .any fun _ _ => .bind (opens_exprs args depth) fun _ hargs =>
    .some ⟨Nat.zero_le depth, hargs, trivial⟩

theorem opens_expr? : ∀ (e : Option Expr) (depth : Nat),
    Yields (fun _ => Part (·.nesting ≤ depth) (Encoder.expr? e))
      (optional? (Decoder.expr? depth) (Encoder.expr? e))
  | none, _ => .any
  | some e, depth => Opens.optional (opens_expr e depth)

theorem opens_exprs : ∀ es : List Expr, Opens Decoder.exprs? (.arr (Encoder.exprs es))
  | [] => .nil rfl
  | e :: es => .cons (fun _ => rfl) (fun _ _ => rfl) (opens_expr e) (opens_exprs es)

theorem opens_pairs {first second : String} (hnames : [first, second].Nodup) :
    ∀ ps : List (Expr × Expr),
      Opens (Decoder.pairs? first second) (.arr (Encoder.pairs first second ps))
  | [] => .nil rfl
  | (a, b) :: rest =>
    have hfirst : Opens (pair? first second)
        (Encoder.parts [(first, some (Encoder.expr a)), (second, some (Encoder.expr b))]) :=
      .parts rfl fun depth => .bindParts hnames rfl <| .bind (opens_expr a depth) fun _ ha =>
        .bind (opens_expr b depth) fun _ hb => .some ⟨ha, hb, trivial⟩
    .cons (fun _ => rfl) (fun _ _ => rfl) hfirst (opens_pairs hnames rest)

theorem opens_namedArgs : ∀ ps : List (Ident × Expr),
    Opens Decoder.namedArgs? (.arr (Encoder.namedArgs ps))
  | [] => .nil rfl
  | (name, e) :: rest =>
    have hfirst : Opens namedArg?
        (Encoder.parts [("name", some (Encoder.ident name)), ("value", some (Encoder.expr e))]) :=
      .parts rfl fun depth => .bindParts (by decide) rfl <| .bind .any fun _ _ =>
        .bind (opens_expr e depth) fun _ he => .some ⟨Nat.zero_le depth, he, trivial⟩
    .cons (fun _ => rfl) (fun _ _ => rfl) hfirst (opens_namedArgs rest)

/-- Binders are opened one by one. -/
theorem opens_binders {key : String} (hnames : ["name", key].Nodup) : ∀ bs : List Binder,
    Opens (Decoder.binders? key) (.arr (Encoder.binders key bs))
  | [] => .nil rfl
  | ⟨name, init⟩ :: rest =>
    have hfirst : Opens (binder? key)
        (Encoder.parts [("name", some (Encoder.ident name)), (key, Encoder.expr? init)]) :=
      .parts rfl fun depth => .bindParts hnames rfl <| .bind .any fun _ _ =>
        .bind (opens_expr? init depth) fun _ hinit => .some ⟨Nat.zero_le depth, hinit, trivial⟩
    .cons (fun _ => rfl) (fun _ _ => rfl) hfirst (opens_binders hnames rest)

/-- A SUB or FUNCTION is opened with its parameters and its body. -/
theorem opens_procedure : ∀ p : Procedure, Opens Decoder.method? (Encoder.procedure p)
  | .sub _ ⟨params, body⟩ => .nodeParts rfl rfl fun depth => .bindParts (by decide) rfl <|
    .bind .any fun _ _ => .bind (opens_binders (by decide) params depth) fun _ hparams =>
    .bind (opens_stmts body depth) fun _ hbody => .some ⟨Nat.zero_le depth, hparams, hbody, trivial⟩
  | .function _ result ⟨params, body⟩ => .nodeParts rfl rfl fun depth =>
    .bindParts (by decide) rfl <| .bind (opens_binders (by decide) params depth) fun _ hparams =>
    .bind .any fun _ _ => .bind .any fun _ _ => .bind (opens_stmts body depth) fun _ hbody =>
    .some ⟨Nat.zero_le depth, hparams, part_ident (fun _ => Nat.zero_le depth) result, hbody,
      trivial⟩

theorem opens_procedures : ∀ ps : List Procedure,
    Opens Decoder.methods? (.arr (Encoder.procedures ps))
  | [] => .nil rfl
  | p :: ps => .cons (fun _ => rfl) (fun _ _ => rfl) (opens_procedure p) (opens_procedures ps)

/-- A TYPE is opened with its fields and its methods. -/
theorem opens_typeDecl : ∀ d : TypeDecl, Opens Decoder.typeDecl? (Encoder.typeDecl d)
  | ⟨_, parent, fields, methods⟩ => .parts rfl fun depth => .bindParts (by decide) rfl <|
    .bind .any fun _ _ => .bind .any fun _ _ =>
    .bind (opens_typeFields fields depth) fun _ hfields =>
    .bind (opens_procedures methods depth) fun _ hmethods =>
    .some ⟨Nat.zero_le depth, part_ident (fun _ => Nat.zero_le depth) parent, hfields, hmethods,
      trivial⟩

theorem opens_guardeds : ∀ gs : List Guarded,
    Opens Decoder.guardeds? (.arr (Encoder.guardeds gs))
  | [] => .nil rfl
  | ⟨cond, body⟩ :: rest =>
    have hfirst : Opens guarded? (Encoder.parts [("cond", some (Encoder.expr cond)),
        ("body", some (.arr (Encoder.stmts body)))]) :=
      .parts rfl fun depth => .bindParts (by decide) rfl <|
        .bind (opens_expr cond depth) fun _ hcond => .bind (opens_stmts body depth) fun _ hbody =>
        .some ⟨hcond, hbody, trivial⟩
    .cons (fun _ => rfl) (fun _ _ => rfl) hfirst (opens_guardeds rest)

theorem opens_handler? : ∀ (c : Option Handler) (depth : Nat),
    Yields (fun _ => Part (·.nesting ≤ depth) (Encoder.handler? c))
      (optional? (Decoder.handler? depth) (Encoder.handler? c))
  | none, _ => .any
  | some ⟨var, body⟩, depth =>
    have hhandler : Opens Decoder.handler? (Encoder.parts [("var", var.map Encoder.ident),
        ("body", some (.arr (Encoder.stmts body)))]) :=
      .parts rfl fun depth => .bindParts (by decide) rfl <| .bind .any fun _ _ =>
        .bind (opens_stmts body depth) fun _ hbody =>
        .some ⟨part_ident (fun _ => Nat.zero_le depth) var, hbody, trivial⟩
    Opens.optional (hhandler depth)

/-- The test of a CASE is opened with its expressions. -/
theorem opens_caseTest : ∀ t : CaseTest, Opens Decoder.caseTest? (Encoder.caseTest t)
  | .values es => .node rfl fun depth => .map (opens_exprs es depth)
  | .relational _ e => .nodeParts rfl rfl fun depth => .bindParts (by decide) rfl <|
    .bind .any fun _ _ => .bind (opens_expr e depth) fun _ he =>
    .some ⟨Nat.zero_le depth, he, trivial⟩
  | .otherwise => .flat rfl

theorem opens_caseBranches : ∀ cs : List CaseBranch,
    Opens Decoder.caseBranches? (.arr (Encoder.caseBranches cs))
  | [] => .nil rfl
  | ⟨test, body⟩ :: rest =>
    have hfirst : Opens caseBranch? (Encoder.parts [("test", some (Encoder.caseTest test)),
        ("body", some (.arr (Encoder.stmts body)))]) :=
      .parts rfl fun depth => .bindParts (by decide) rfl <|
        .bind (opens_caseTest test depth) fun _ htest =>
        .bind (opens_stmts body depth) fun _ hbody => .some ⟨htest, hbody, trivial⟩
    .cons (fun _ => rfl) (fun _ _ => rfl) hfirst (opens_caseBranches rest)

/-- **A statement is decoded only if all that its document nests may be opened.** -/
theorem opens_stmt : ∀ s : Stmt, Opens Decoder.stmt? (Encoder.stmt s)
  | .optionExplicit | .breakLoop | .continueLoop | .breakpoint => .flat rfl
  | .locals bs => .node rfl fun depth => .map (opens_binders (by decide) bs depth)
  | .globals names => .node rfl fun depth => .map (opens_idents names depth)
  | .define _ e | .assign _ e | .constant _ e => .nodeParts rfl rfl fun depth =>
    .bindParts (by decide) rfl <| .bind .any fun _ _ => .bind (opens_expr e depth) fun _ he =>
    .some ⟨Nat.zero_le depth, he, trivial⟩
  | .assignIndex _ es e => .nodeParts rfl rfl fun depth => .bindParts (by decide) rfl <|
    .bind .any fun _ _ => .bind (opens_exprs es depth) fun _ hes =>
    .bind (opens_expr e depth) fun _ he => .some ⟨Nat.zero_le depth, hes, he, trivial⟩
  | .assignMember object _ e => .nodeParts rfl rfl fun depth => .bindParts (by decide) rfl <|
    .bind (opens_expr object depth) fun _ hobject => .bind .any fun _ _ =>
    .bind (opens_expr e depth) fun _ he => .some ⟨hobject, Nat.zero_le depth, he, trivial⟩
  | .destructure names e => .nodeParts rfl rfl fun depth => .bindParts (by decide) rfl <|
    .bind (opens_idents names depth) fun _ hnames => .bind (opens_expr e depth) fun _ he =>
    .some ⟨hnames, he, trivial⟩
  | .print e | .expr e | .raise e | .debugPrint e => .node rfl fun depth =>
    .map (opens_expr e depth)
  | .call _ args named => .nodeParts rfl rfl fun depth => .bindParts (by decide) rfl <|
    .bind .any fun _ _ => .bind (opens_exprs args depth) fun _ hargs =>
    .bind (opens_named (opens_namedArgs named) depth) fun _ hnamed =>
    .some ⟨Nat.zero_le depth, hargs, hnamed, trivial⟩
  | .branch branches otherwise => .nodeParts rfl rfl fun depth => .bindParts (by decide) rfl <|
    .bind (opens_guardeds branches depth) fun _ hbranches =>
    .bind (opens_stmts? otherwise depth) fun _ hotherwise => .some ⟨hbranches, hotherwise, trivial⟩
  | .whileLoop e body => .nodeParts rfl rfl fun depth => .bindParts (by decide) rfl <|
    .bind (opens_expr e depth) fun _ he => .bind (opens_stmts body depth) fun _ hbody =>
    .some ⟨he, hbody, trivial⟩
  | .forLoop _ a b step body => .nodeParts rfl rfl fun depth => .bindParts (by decide) rfl <|
    .bind .any fun _ _ => .bind (opens_expr a depth) fun _ ha =>
    .bind (opens_expr b depth) fun _ hb => .bind (opens_expr? step depth) fun _ hstep =>
    .bind (opens_stmts body depth) fun _ hbody =>
    .some ⟨Nat.zero_le depth, ha, hb, hstep, hbody, trivial⟩
  | .forEach _ e body => .nodeParts rfl rfl fun depth => .bindParts (by decide) rfl <|
    .bind .any fun _ _ => .bind (opens_expr e depth) fun _ he =>
    .bind (opens_stmts body depth) fun _ hbody => .some ⟨Nat.zero_le depth, he, hbody, trivial⟩
  | .doLoop body => .nodeParts rfl rfl fun depth => .bindParts (by decide) rfl <|
    .bind (opens_stmts body depth) fun _ hbody => .some ⟨hbody, trivial⟩
  | .repeatLoop body e => .nodeParts rfl rfl fun depth => .bindParts (by decide) rfl <|
    .bind (opens_stmts body depth) fun _ hbody => .bind (opens_expr e depth) fun _ he =>
    .some ⟨hbody, he, trivial⟩
  | .select e branches => .nodeParts rfl rfl fun depth => .bindParts (by decide) rfl <|
    .bind (opens_expr e depth) fun _ he =>
    .bind (opens_caseBranches branches depth) fun _ hbranches => .some ⟨he, hbranches, trivial⟩
  | .returnWith none => .node rfl fun depth => .all fun _ => Nat.zero_le depth
  | .returnWith (some e) => .node rfl fun depth => .map (Opens.optional (opens_expr e depth))
  | .exit _ => .node rfl fun depth => .all fun _ => Nat.zero_le depth
  | .dim _ es => .nodeParts rfl rfl fun depth => .bindParts (by decide) rfl <| .bind .any fun _ _ =>
    .bind (opens_exprs es depth) fun _ hes => .some ⟨Nat.zero_le depth, hes, trivial⟩
  | .redim _ es _ => .nodeParts rfl rfl fun depth => .bindParts (by decide) rfl <|
    .bind .any fun _ _ => .bind (opens_exprs es depth) fun _ hes => .bind .any fun _ _ =>
    .some ⟨Nat.zero_le depth, hes, Nat.zero_le depth, trivial⟩
  | .procedure p => opens_stmt_procedure (opens_procedure p)
  | .typeBlock d => .node rfl fun depth => .map (opens_typeDecl d depth)
  | .enum _ members => .nodeParts rfl rfl fun depth => .bindParts (by decide) rfl <|
    .bind .any fun _ _ => .bind (opens_binders (by decide) members depth) fun _ hmembers =>
    .some ⟨Nat.zero_le depth, hmembers, trivial⟩
  | .attempt body handler cleanup => .nodeParts rfl rfl fun depth => .bindParts (by decide) rfl <|
    .bind (opens_stmts body depth) fun _ hbody =>
    .bind (opens_handler? handler depth) fun _ hhandler =>
    .bind (opens_stmts? cleanup depth) fun _ hcleanup => .some ⟨hbody, hhandler, hcleanup, trivial⟩
  | .assertion e message => .nodeParts rfl rfl fun depth => .bindParts (by decide) rfl <|
    .bind (opens_expr e depth) fun _ he => .bind (opens_expr? message depth) fun _ hmessage =>
    .some ⟨he, hmessage, trivial⟩
  | .using _ e body => .nodeParts rfl rfl fun depth => .bindParts (by decide) rfl <|
    .bind .any fun _ _ => .bind (opens_expr e depth) fun _ he =>
    .bind (opens_stmts body depth) fun _ hbody => .some ⟨Nat.zero_le depth, he, hbody, trivial⟩

theorem opens_stmts : ∀ ss : List Stmt, Opens Decoder.stmts? (.arr (Encoder.stmts ss))
  | [] => .nil rfl
  | s :: ss => .cons (fun _ => rfl) (fun _ _ => rfl) (opens_stmt s) (opens_stmts ss)

theorem opens_stmts? : ∀ (ss : Option (List Stmt)) (depth : Nat),
    Yields (fun _ => Part (·.nesting ≤ depth) (Encoder.stmts? ss))
      (optional? (Decoder.stmts? depth) (Encoder.stmts? ss))
  | none, _ => .any
  | some body, depth => Opens.optional (opens_stmts body depth)

end

end BasicScript
