import BasicScript.Proofs.RoundTrip.Filling

/-!
# Trees that have been decoded

What the decoder yields is a plain tree, and the document of this tree is filled no deeper than the
decoder was allowed to open.  It may be nested one level deeper: where a list of arguments, fields
or methods is missing, the decoder puts an empty list, and the encoder writes this list out.

The induction is on the depth: a decoder uses other decoders only for what it has opened.

* `DecodersFit depth`: what each decoder yields at this depth fits into it.
* `DecodersFit.zero`, `DecodersFit.succ`: nothing can be opened; one level more can be opened.
* `decodersFit`: both put together.
-/

namespace BasicScript

/-! ## Each kind of tree -/

section Kinds

variable (depth : Nat)

/-- An expression fits. -/
abbrev ExprFits (e : Expr) : Prop :=
  Fits depth (Plain.expr e) (Encoder.expr e)

/-- An optional expression fits. -/
abbrev OptExprFits (e : Option Expr) : Prop :=
  PartFits depth (Plain.expr? e) (Encoder.expr? e)

/-- A list of expressions fits. -/
abbrev ExprsFit (es : List Expr) : Prop :=
  Fits depth (Plain.exprs es) (.arr (Encoder.exprs es))

/-- A pair of expressions fits. -/
abbrev PairFits (first second : String) (p : Expr × Expr) : Prop :=
  Fits depth (Plain.expr p.1 && Plain.expr p.2)
    (Encoder.parts [(first, some (Encoder.expr p.1)), (second, some (Encoder.expr p.2))])

/-- A list of pairs fits. -/
abbrev PairsFit (first second : String) (ps : List (Expr × Expr)) : Prop :=
  Fits depth (Plain.pairs ps) (.arr (Encoder.pairs first second ps))

/-- A named argument fits. -/
abbrev NamedArgFits (p : Ident × Expr) : Prop :=
  Fits depth (Plain.expr p.2)
    (Encoder.parts [("name", some (Encoder.ident p.1)), ("value", some (Encoder.expr p.2))])

/-- A list of named arguments fits. -/
abbrev NamedArgsFit (ps : List (Ident × Expr)) : Prop :=
  Fits depth (Plain.namedArgs ps) (.arr (Encoder.namedArgs ps))

/-- A binder fits. -/
abbrev BinderFits (key : String) (b : Binder) : Prop :=
  Fits depth (Plain.expr? b.init)
    (Encoder.parts [("name", some (Encoder.ident b.name)), (key, Encoder.expr? b.init)])

/-- A list of binders fits. -/
abbrev BindersFit (key : String) (bs : List Binder) : Prop :=
  Fits depth (Plain.binders bs) (.arr (Encoder.binders key bs))

/-- A procedure fits. -/
abbrev ProcedureFits (p : Procedure) : Prop :=
  Fits depth (Plain.procedure p) (Encoder.procedure p)

/-- A list of procedures fits. -/
abbrev ProceduresFit (ps : List Procedure) : Prop :=
  Fits depth (Plain.procedures ps) (.arr (Encoder.procedures ps))

/-- The fields of a type fit. -/
abbrev FieldsFit (fs : List (Ident × Option Ident)) : Prop :=
  Fits depth true (Encoder.typeFields fs)

/-- What a TYPE holds fits. -/
abbrev TypeDeclFits (d : TypeDecl) : Prop :=
  Fits depth (Plain.typeDecl d) (Encoder.typeDecl d)

/-- A guarded body fits. -/
abbrev GuardedFits (g : Guarded) : Prop :=
  Fits depth (Plain.expr g.cond && Plain.stmts g.body)
    (Encoder.parts [("cond", some (Encoder.expr g.cond)),
      ("body", some (.arr (Encoder.stmts g.body)))])

/-- A list of guarded bodies fits. -/
abbrev GuardedsFit (gs : List Guarded) : Prop :=
  Fits depth (Plain.guardeds gs) (.arr (Encoder.guardeds gs))

/-- A handler fits. -/
abbrev HandlerFits (c : Handler) : Prop :=
  Fits depth (Plain.stmts c.body)
    (Encoder.parts [("var", c.var.map Encoder.ident), ("body", some (.arr (Encoder.stmts c.body)))])

/-- An optional handler fits. -/
abbrev OptHandlerFits (c : Option Handler) : Prop :=
  PartFits depth (Plain.handler? c) (Encoder.handler? c)

/-- What a CASE matches fits. -/
abbrev CaseTestFits (t : CaseTest) : Prop :=
  Fits depth (Plain.caseTest t) (Encoder.caseTest t)

/-- A CASE fits. -/
abbrev CaseBranchFits (c : CaseBranch) : Prop :=
  Fits depth (Plain.caseTest c.test && Plain.stmts c.body)
    (Encoder.parts [("test", some (Encoder.caseTest c.test)),
      ("body", some (.arr (Encoder.stmts c.body)))])

/-- A list of CASEs fits. -/
abbrev CaseBranchesFit (cs : List CaseBranch) : Prop :=
  Fits depth (Plain.caseBranches cs) (.arr (Encoder.caseBranches cs))

/-- A statement fits. -/
abbrev StmtFits (s : Stmt) : Prop :=
  Fits depth (Plain.stmt s) (Encoder.stmt s)

/-- A list of statements fits. -/
abbrev StmtsFit (ss : List Stmt) : Prop :=
  Fits depth (Plain.stmts ss) (.arr (Encoder.stmts ss))

/-- An optional body fits. -/
abbrev OptStmtsFit (ss : Option (List Stmt)) : Prop :=
  PartFits depth (Plain.stmts? ss) (Encoder.stmts? ss)

end Kinds

/-! ## Decoders that may open one level more -/

open Decoder

/-- What each decoder yields fits into the depth that it may open.  A decoder for the parts of a
node comes after the node was opened, so its result may take a level more. -/
structure DecodersFit (depth : Nat) : Prop where
  expr : ∀ j, Yields (ExprFits depth) (expr? depth j)
  exprOfParts : ∀ kind j, Yields (ExprFits (depth + 1)) (exprOfParts? kind depth j)
  exprs : ∀ j, Yields (ExprsFit depth) (exprs? depth j)
  pairs : ∀ first second j, Yields (PairsFit depth first second) (pairs? first second depth j)
  pair : ∀ first second j, Yields (PairFits depth first second) (pair? first second depth j)
  namedArgs : ∀ j, Yields (NamedArgsFit depth) (namedArgs? depth j)
  namedArg : ∀ j, Yields (NamedArgFits depth) (namedArg? depth j)
  binders : ∀ key j, Yields (BindersFit depth key) (binders? key depth j)
  binder : ∀ key j, Yields (BinderFits depth key) (binder? key depth j)
  sub : ∀ j, Yields (ProcedureFits (depth + 1)) (sub? depth j)
  function : ∀ j, Yields (ProcedureFits (depth + 1)) (function? depth j)
  method : ∀ j, Yields (ProcedureFits depth) (method? depth j)
  methods : ∀ j, Yields (ProceduresFit depth) (methods? depth j)
  typeDecl : ∀ j, Yields (TypeDeclFits depth) (typeDecl? depth j)
  guarded : ∀ j, Yields (GuardedFits depth) (guarded? depth j)
  guardeds : ∀ j, Yields (GuardedsFit depth) (guardeds? depth j)
  handler : ∀ j, Yields (HandlerFits depth) (handler? depth j)
  caseTest : ∀ j, Yields (CaseTestFits depth) (caseTest? depth j)
  relational : ∀ j, Yields (CaseTestFits (depth + 1)) (relational? depth j)
  caseBranch : ∀ j, Yields (CaseBranchFits depth) (caseBranch? depth j)
  caseBranches : ∀ j, Yields (CaseBranchesFit depth) (caseBranches? depth j)
  stmt : ∀ j, Yields (StmtFits depth) (stmt? depth j)
  stmtOfParts : ∀ kind j, Yields (StmtFits (depth + 1)) (stmtOfParts? kind depth j)
  stmts : ∀ j, Yields (StmtsFit depth) (stmts? depth j)

namespace DecodersFit

variable {depth : Nat}

/-- A statement that is written as a bare text has no parts to fit. -/
theorem bareStmt (kind : String) : Yields (StmtFits depth) (bareStmt? kind) := by
  unfold bareStmt?
  split
  · exact .some ⟨rfl, Nat.zero_le depth⟩
  · exact .some ⟨rfl, Nat.zero_le depth⟩
  · exact .some ⟨rfl, Nat.zero_le depth⟩
  · exact .some ⟨rfl, Nat.zero_le depth⟩
  · exact .none

/-- With nothing to open only names are decoded. -/
theorem zero : DecodersFit 0 where
  expr j := by
    unfold expr?
    split
    · exact .some ⟨rfl, Nat.le_refl 0⟩
    · contradiction
    · contradiction
    · exact .none
  exprOfParts _ _ := .none
  exprs _ := .none
  pairs _ _ _ := .none
  pair _ _ _ := .none
  namedArgs _ := .none
  namedArg _ := .none
  binders _ _ := .none
  binder _ _ := .none
  sub _ := .none
  function _ := .none
  method _ := .none
  methods _ := .none
  typeDecl _ := .none
  guarded _ := .none
  guardeds _ := .none
  handler _ := .none
  caseTest j := by
    unfold caseTest?
    split
    · exact .some ⟨rfl, Nat.le_refl 0⟩
    · contradiction
    · contradiction
    · contradiction
    · exact .none
  relational _ := .none
  caseBranch _ := .none
  caseBranches _ := .none
  stmt j := by
    unfold stmt?
    split
    · exact bareStmt _
    · contradiction
    · exact .none
  stmtOfParts _ _ := .none
  stmts _ := .none

/-- A number that is read is finite. -/
theorem float (j : Json) : Yields (fun x => Double.isFinite x = true) (float? j) := by
  unfold float?
  split
  · exact fun x hx => Numeral.isFinite_of_toFloat? hx
  · exact .none

/-- A list of names holds nothing that could be opened. -/
theorem idents (j : Json) :
    Yields (fun is => (Encoder.idents is).filling ≤ depth) (idents? depth j) := by
  unfold idents? list?
  split
  · exact .all fun is => filling_idents_le is _
  · exact .none

/-- A field of a type consists of names, which fit at any depth. -/
theorem typeField (j : Json) :
    Yields (fun f => Fits depth true (Encoder.parts [("name", some (Encoder.ident f.1)),
      ("type_name", f.2.map Encoder.ident)])) (typeField? depth j) := by
  unfold typeField?
  split
  · refine .bind .any fun ps _ => ?_
    split
    · exact .bind .any fun name _ => .bind .any fun type _ =>
        .some (.parts rfl ⟨Nat.zero_le _, part_ident (fun _ => Nat.zero_le _) type, trivial⟩)
    · exact .none
  · exact .none

/-- Fields that are missing become an empty list, which holds nothing at any depth. -/
theorem fields (part : Option Json) :
    Yields (FieldsFit depth) (default? [] (list? typeField? depth) part) := by
  refine .default ⟨rfl, Nat.zero_le depth⟩ (fun j => ?_) part
  unfold list?
  split
  · refine (Yields.mapM typeField).imp fun fs hfs => ⟨rfl, Json.filling_arr_le fun v hv => ?_⟩
    obtain ⟨f, hf, rfl⟩ := List.mem_map.mp hv
    exact (hfs f hf).filling
  · exact .none

section Successor

variable (h : DecodersFit depth)

include h

/-- An expression that may be missing fits since one that is there does. -/
theorem optExpr (part : Option Json) :
    Yields (OptExprFits depth) (optional? (expr? depth) part) :=
  .optional ⟨rfl, trivial⟩ (fun j => (h.expr j).imp fun _ he => he.part) part

theorem optStmts (part : Option Json) :
    Yields (OptStmtsFit depth) (optional? (Decoder.stmts? depth) part) :=
  .optional ⟨rfl, trivial⟩ (fun j => (h.stmts j).imp fun _ hss => hss.part) part

/-- A CATCH that may be missing fits since one that is there does. -/
theorem optHandler (part : Option Json) :
    Yields (OptHandlerFits depth) (optional? (Decoder.handler? depth) part) :=
  .optional ⟨rfl, trivial⟩ (fun j => (h.handler j).imp fun ⟨_, _⟩ hc => hc.part) part

/-- Arguments that are missing become an empty list, which holds nothing at any depth. -/
theorem args (part : Option Json) :
    Yields (ExprsFit depth) (default? [] (exprs? depth) part) :=
  .default ⟨rfl, Nat.zero_le depth⟩ h.exprs part

/-- Named arguments that are missing are left out again. -/
theorem named (part : Option Json) :
    Yields (fun ps => PartFits depth (Plain.namedArgs ps) (Encoder.namedArgs? ps))
      (default? [] (Decoder.namedArgs? depth) part) :=
  .default ⟨rfl, trivial⟩
    (fun j => (h.namedArgs j).imp fun _ hps => ⟨hps.plain, part_namedArgs? hps.filling⟩) part

/-- Methods that are missing become an empty list, which holds nothing at any depth. -/
theorem procedures (part : Option Json) :
    Yields (ProceduresFit depth) (default? [] (methods? depth) part) :=
  .default ⟨rfl, Nat.zero_le depth⟩ h.methods part

/-- Parameters that are missing become an empty list, which holds nothing at any depth. -/
theorem params (part : Option Json) :
    Yields (BindersFit depth "default") (default? [] (binders? "default" depth) part) :=
  .default ⟨rfl, Nat.zero_le depth⟩ (h.binders "default") part

theorem exprs_succ (j : Json) : Yields (ExprsFit (depth + 1)) (exprs? (depth + 1) j) := by
  cases j with
  | arr items =>
    exact (Yields.mapM h.expr).imp fun _ hes =>
      .list ⟨rfl, rfl⟩ (fun _ _ => ⟨rfl, rfl⟩) hes
  | _ => exact .none

theorem pairs_succ (first second : String) (j : Json) :
    Yields (PairsFit (depth + 1) first second) (pairs? first second (depth + 1) j) := by
  cases j with
  | arr items =>
    exact (Yields.mapM (h.pair first second)).imp fun _ hps =>
      .list ⟨rfl, rfl⟩ (fun _ _ => ⟨rfl, rfl⟩) hps
  | _ => exact .none

/-- A pair fits since its two expressions do. -/
theorem pair_succ (first second : String) (j : Json) :
    Yields (PairFits (depth + 1) first second) (pair? first second (depth + 1) j) := by
  unfold pair?
  refine .bind .any fun ps _ => ?_
  split
  · exact .bind (h.expr _) fun a ha => .bind (h.expr _) fun b hb =>
      .some (.parts (plain_and ha.plain hb.plain)
        ⟨ha.filling, hb.filling, trivial⟩)
  · exact .none

theorem namedArgs_succ (j : Json) :
    Yields (NamedArgsFit (depth + 1)) (Decoder.namedArgs? (depth + 1) j) := by
  cases j with
  | arr items =>
    exact (Yields.mapM h.namedArg).imp fun _ hps =>
      .list ⟨rfl, rfl⟩ (fun _ _ => ⟨rfl, rfl⟩) hps
  | _ => exact .none

theorem namedArg_succ (j : Json) :
    Yields (NamedArgFits (depth + 1)) (namedArg? (depth + 1) j) := by
  unfold namedArg?
  refine .bind .any fun ps _ => ?_
  split
  · exact .bind .any fun name _ => .bind (h.expr _) fun e he =>
      .some (.parts he.plain ⟨Nat.zero_le depth, he.filling, trivial⟩)
  · exact .none

theorem binders_succ (key : String) (j : Json) :
    Yields (BindersFit (depth + 1) key) (binders? key (depth + 1) j) := by
  cases j with
  | arr items =>
    exact (Yields.mapM (h.binder key)).imp fun _ hbs =>
      .list ⟨rfl, rfl⟩ (fun ⟨_, _⟩ _ => ⟨rfl, rfl⟩) hbs
  | _ => exact .none

/-- A binder fits since what it starts with does. -/
theorem binder_succ (key : String) (j : Json) :
    Yields (BinderFits (depth + 1) key) (binder? key (depth + 1) j) := by
  unfold binder?
  refine .bind .any fun ps _ => ?_
  split
  · exact .bind .any fun name _ => .bind (h.optExpr _) fun init hinit =>
      .some (.parts hinit.plain ⟨Nat.zero_le depth, hinit.filling, trivial⟩)
  · exact .none

/-- A SUB fits since its parameters and its body do. -/
theorem sub_succ (j : Json) : Yields (ProcedureFits (depth + 2)) (sub? (depth + 1) j) := by
  unfold sub?
  refine .bind .any fun ps _ => ?_
  split
  · exact .bind .any fun name _ => .bind (h.params _) fun params hparams =>
      .bind (h.stmts _) fun body hbody =>
      .some (.nodeParts (plain_and hparams.plain hbody.plain)
        ⟨Nat.zero_le depth, hparams.filling, hbody.filling, trivial⟩)
  · exact .none

theorem function_succ (j : Json) :
    Yields (ProcedureFits (depth + 2)) (function? (depth + 1) j) := by
  unfold function?
  refine .bind .any fun ps _ => ?_
  split
  · exact .bind (h.params _) fun params hparams => .bind .any fun name _ =>
      .bind .any fun result _ => .bind (h.stmts _) fun body hbody =>
      .some (.nodeParts (plain_and hparams.plain hbody.plain)
        ⟨Nat.zero_le depth, hparams.filling, part_ident (fun _ => Nat.zero_le depth) result,
          hbody.filling, trivial⟩)
  · exact .none

/-- A method fits since it is a SUB or a FUNCTION. -/
theorem method_succ (j : Json) : Yields (ProcedureFits (depth + 1)) (method? (depth + 1) j) := by
  unfold method?
  split
  · next heq =>
    cases heq
    exact h.sub _
  · next heq =>
    cases heq
    exact h.function _
  · exact .none

theorem methods_succ (j : Json) :
    Yields (ProceduresFit (depth + 1)) (methods? (depth + 1) j) := by
  cases j with
  | arr items =>
    exact (Yields.mapM h.method).imp fun _ hps =>
      .list ⟨rfl, rfl⟩ (fun _ _ => ⟨rfl, rfl⟩) hps
  | _ => exact .none

/-- A TYPE fits since its fields and its methods do. -/
theorem typeDecl_succ (j : Json) :
    Yields (TypeDeclFits (depth + 1)) (Decoder.typeDecl? (depth + 1) j) := by
  unfold Decoder.typeDecl?
  refine .bind .any fun ps _ => ?_
  split
  · exact .bind .any fun name _ => .bind .any fun parent _ =>
      .bind (fields _) fun fs hfields => .bind (h.procedures _) fun methods hmethods =>
      .some (.parts hmethods.plain
        ⟨Nat.zero_le depth, part_ident (fun _ => Nat.zero_le depth) parent, hfields.filling,
          hmethods.filling, trivial⟩)
  · exact .none

theorem guarded_succ (j : Json) : Yields (GuardedFits (depth + 1)) (guarded? (depth + 1) j) := by
  unfold guarded?
  refine .bind .any fun ps _ => ?_
  split
  · exact .bind (h.expr _) fun cond hcond => .bind (h.stmts _) fun body hbody =>
      .some (.parts (plain_and hcond.plain hbody.plain)
        ⟨hcond.filling, hbody.filling, trivial⟩)
  · exact .none

theorem guardeds_succ (j : Json) :
    Yields (GuardedsFit (depth + 1)) (guardeds? (depth + 1) j) := by
  cases j with
  | arr items =>
    exact (Yields.mapM h.guarded).imp fun _ hgs =>
      .list ⟨rfl, rfl⟩ (fun ⟨_, _⟩ _ => ⟨rfl, rfl⟩) hgs
  | _ => exact .none

theorem handler_succ (j : Json) :
    Yields (HandlerFits (depth + 1)) (Decoder.handler? (depth + 1) j) := by
  unfold Decoder.handler?
  refine .bind .any fun ps _ => ?_
  split
  · exact .bind .any fun var _ => .bind (h.stmts _) fun body hbody =>
      .some (.parts hbody.plain
        ⟨part_ident (fun _ => Nat.zero_le depth) var, hbody.filling, trivial⟩)
  · exact .none

/-- The test of a CASE fits, of whatever kind it is. -/
theorem caseTest_succ (j : Json) :
    Yields (CaseTestFits (depth + 1)) (caseTest? (depth + 1) j) := by
  unfold caseTest?
  split
  · exact .some ⟨rfl, Nat.zero_le _⟩
  · exact .some ⟨rfl, Nat.zero_le _⟩
  · next heq =>
    cases heq
    exact .map ((h.exprs _).imp fun _ hes => .node hes)
  · next heq =>
    cases heq
    exact h.relational _
  · exact .none

/-- A CASE that compares fits since the expression it compares with does. -/
theorem relational_succ (j : Json) :
    Yields (CaseTestFits (depth + 2)) (relational? (depth + 1) j) := by
  unfold relational?
  refine .bind .any fun ps _ => ?_
  split
  · exact .bind .any fun op _ => .bind (h.expr _) fun value hvalue =>
      .some (.nodeParts hvalue.plain ⟨Nat.zero_le depth, hvalue.filling, trivial⟩)
  · exact .none

theorem caseBranch_succ (j : Json) :
    Yields (CaseBranchFits (depth + 1)) (caseBranch? (depth + 1) j) := by
  unfold caseBranch?
  refine .bind .any fun ps _ => ?_
  split
  · exact .bind (h.caseTest _) fun test htest => .bind (h.stmts _) fun body hbody =>
      .some (.parts (plain_and htest.plain hbody.plain)
        ⟨htest.filling, hbody.filling, trivial⟩)
  · exact .none

theorem caseBranches_succ (j : Json) :
    Yields (CaseBranchesFit (depth + 1)) (caseBranches? (depth + 1) j) := by
  cases j with
  | arr items =>
    exact (Yields.mapM h.caseBranch).imp fun _ hcs =>
      .list ⟨rfl, rfl⟩ (fun ⟨_, _⟩ _ => ⟨rfl, rfl⟩) hcs
  | _ => exact .none

theorem stmts_succ (j : Json) : Yields (StmtsFit (depth + 1)) (Decoder.stmts? (depth + 1) j) := by
  cases j with
  | arr items =>
    exact (Yields.mapM h.stmt).imp fun _ hss => .list ⟨rfl, rfl⟩ (fun _ _ => ⟨rfl, rfl⟩) hss
  | _ => exact .none

/-- An expression fits, a bare text as well as a kind with its parts. -/
theorem expr_succ (j : Json) : Yields (ExprFits (depth + 1)) (expr? (depth + 1) j) := by
  unfold expr?
  split
  · exact .some ⟨rfl, Nat.zero_le _⟩
  · exact .some ⟨rfl, Nat.zero_le _⟩
  · next heq =>
    cases heq
    split
    · exact .map (.all fun b => .node ⟨rfl, Nat.zero_le depth⟩)
    · exact .map (.all fun n => .node ⟨rfl, Nat.zero_le depth⟩)
    · exact .map ((float _).imp fun x hx =>
        .node ⟨hx, (filling_float x).trans_le (Nat.zero_le depth)⟩)
    · exact .map (.all fun s => .node ⟨rfl, Nat.zero_le depth⟩)
    · exact .map (.all fun name => .node ⟨rfl, Nat.zero_le depth⟩)
    · exact .map ((h.exprs _).imp fun _ hes => .node hes)
    · exact .map ((h.pairs _ _ _).imp fun _ hps => .node hps)
    · exact .map ((h.exprs _).imp fun _ hes => .node hes)
    · exact .map ((h.expr _).imp fun _ he => .node he)
    · exact .map ((h.exprs _).imp fun _ hes => .node hes)
    · exact .map ((h.expr _).imp fun _ he => .node he)
    · exact .map ((h.expr _).imp fun _ he => .node he)
    · exact .map ((h.expr _).imp fun _ he => .node he)
    · exact h.exprOfParts _ _
  · exact .none

/-- An expression of some kind fits since its parts do. -/
theorem exprOfParts_succ (kind : String) (j : Json) :
    Yields (ExprFits (depth + 2)) (exprOfParts? kind (depth + 1) j) := by
  unfold exprOfParts?
  split
  · -- Unary
    refine .bind .any fun ps _ => ?_
    split
    · exact .bind .any fun op _ => .bind (h.expr _) fun e he =>
        .some (.nodeParts he.plain ⟨Nat.zero_le depth, he.filling, trivial⟩)
    · exact .none
  · -- Binary
    refine .bind .any fun ps _ => ?_
    split
    · exact .bind .any fun op _ => .bind (h.expr _) fun a ha => .bind (h.expr _) fun b hb =>
        .some (.nodeParts (plain_and ha.plain hb.plain)
          ⟨Nat.zero_le depth, ha.filling, hb.filling, trivial⟩)
    · exact .none
  · -- Index
    refine .bind .any fun ps _ => ?_
    split
    · exact .bind (h.expr _) fun e he => .bind (h.exprs _) fun es hes =>
        .some (.nodeParts (plain_and he.plain hes.plain)
          ⟨he.filling, hes.filling, trivial⟩)
    · exact .none
  · -- Call
    refine .bind .any fun ps _ => ?_
    split
    · exact .bind .any fun name _ => .bind (h.args _) fun args hargs =>
        .bind (h.named _) fun named hnamed =>
        .some (.nodeParts (plain_and hargs.plain hnamed.plain)
          ⟨Nat.zero_le depth, hargs.filling, hnamed.filling, trivial⟩)
    · exact .none
  · -- Member
    refine .bind .any fun ps _ => ?_
    split
    · exact .bind (h.expr _) fun e he => .bind .any fun name _ =>
        .some (.nodeParts he.plain ⟨he.filling, Nat.zero_le depth, trivial⟩)
    · exact .none
  · -- MethodCall
    refine .bind .any fun ps _ => ?_
    split
    · exact .bind (h.expr _) fun e he => .bind .any fun name _ =>
        .bind (h.args _) fun args hargs =>
        .some (.nodeParts (plain_and he.plain hargs.plain)
          ⟨he.filling, Nat.zero_le depth, hargs.filling, trivial⟩)
    · exact .none
  · -- Lambda
    refine .bind .any fun ps _ => ?_
    split
    · exact .bind (h.params _) fun params hparams => .bind (h.stmts _) fun body hbody =>
        .some (.nodeParts (plain_and rfl (plain_and hparams.plain hbody.plain))
          ⟨hparams.filling, hbody.filling, trivial⟩)
    · exact .none
  · -- Range
    refine .bind .any fun ps _ => ?_
    split
    · exact .bind (h.expr _) fun a ha => .bind (h.expr _) fun b hb =>
        .some (.nodeParts (plain_and ha.plain hb.plain)
          ⟨ha.filling, hb.filling, trivial⟩)
    · exact .none
  · -- Comprehension
    refine .bind .any fun ps _ => ?_
    split
    · exact .bind (h.expr _) fun item hitem => .bind .any fun var _ =>
        .bind (h.expr _) fun source hsource => .bind (h.optExpr _) fun filter hfilter =>
        .some (.nodeParts (plain_and (plain_and hitem.plain hsource.plain) hfilter.plain)
          ⟨hitem.filling, Nat.zero_le depth, hsource.filling, hfilter.filling, trivial⟩)
    · exact .none
  · -- Match
    refine .bind .any fun ps _ => ?_
    split
    · exact .bind (h.expr _) fun e he => .bind (h.pairs _ _ _) fun arms harms =>
        .bind (h.optExpr _) fun otherwise hotherwise =>
        .some (.nodeParts (plain_and (plain_and he.plain harms.plain) hotherwise.plain)
          ⟨he.filling, harms.filling, hotherwise.filling, trivial⟩)
    · exact .none
  · -- NullSafeMember
    refine .bind .any fun ps _ => ?_
    split
    · exact .bind (h.expr _) fun e he => .bind .any fun name _ =>
        .some (.nodeParts he.plain ⟨he.filling, Nat.zero_le depth, trivial⟩)
    · exact .none
  · -- NullSafeIndex
    refine .bind .any fun ps _ => ?_
    split
    · exact .bind (h.expr _) fun a ha => .bind (h.expr _) fun b hb =>
        .some (.nodeParts (plain_and ha.plain hb.plain)
          ⟨ha.filling, hb.filling, trivial⟩)
    · exact .none
  · -- Coalesce
    refine .bind .any fun ps _ => ?_
    split
    · exact .bind (h.expr _) fun a ha => .bind (h.expr _) fun b hb =>
        .some (.nodeParts (plain_and ha.plain hb.plain)
          ⟨ha.filling, hb.filling, trivial⟩)
    · exact .none
  · -- SuperCall
    refine .bind .any fun ps _ => ?_
    split
    · exact .bind .any fun name _ => .bind (h.args _) fun args hargs =>
        .some (.nodeParts hargs.plain ⟨Nat.zero_le depth, hargs.filling, trivial⟩)
    · exact .none
  · exact .none

theorem stmtOfParts_succ (kind : String) (j : Json) :
    Yields (StmtFits (depth + 2)) (stmtOfParts? kind (depth + 1) j) := by
  unfold stmtOfParts?
  split
  · -- Let
    refine .bind .any fun ps _ => ?_
    split
    · exact .bind .any fun name _ => .bind (h.expr _) fun e he =>
        .some (.nodeParts he.plain ⟨Nat.zero_le depth, he.filling, trivial⟩)
    · exact .none
  · -- Assign
    refine .bind .any fun ps _ => ?_
    split
    · exact .bind .any fun name _ => .bind (h.expr _) fun e he =>
        .some (.nodeParts he.plain ⟨Nat.zero_le depth, he.filling, trivial⟩)
    · exact .none
  · -- Const
    refine .bind .any fun ps _ => ?_
    split
    · exact .bind .any fun name _ => .bind (h.expr _) fun e he =>
        .some (.nodeParts he.plain ⟨Nat.zero_le depth, he.filling, trivial⟩)
    · exact .none
  · -- AssignIndex
    refine .bind .any fun ps _ => ?_
    split
    · exact .bind .any fun name _ => .bind (h.exprs _) fun es hes => .bind (h.expr _) fun e he =>
        .some (.nodeParts (plain_and hes.plain he.plain)
          ⟨Nat.zero_le depth, hes.filling, he.filling, trivial⟩)
    · exact .none
  · -- AssignMember
    refine .bind .any fun ps _ => ?_
    split
    · exact .bind (h.expr _) fun object hobject => .bind .any fun name _ =>
        .bind (h.expr _) fun e he =>
        .some (.nodeParts (plain_and hobject.plain he.plain)
          ⟨hobject.filling, Nat.zero_le depth, he.filling, trivial⟩)
    · exact .none
  · -- Destructure
    refine .bind .any fun ps _ => ?_
    split
    · exact .bind (idents _) fun names hnames => .bind (h.expr _) fun e he =>
        .some (.nodeParts he.plain ⟨hnames, he.filling, trivial⟩)
    · exact .none
  · -- Call
    refine .bind .any fun ps _ => ?_
    split
    · exact .bind .any fun name _ => .bind (h.args _) fun args hargs =>
        .bind (h.named _) fun named hnamed =>
        .some (.nodeParts (plain_and hargs.plain hnamed.plain)
          ⟨Nat.zero_le depth, hargs.filling, hnamed.filling, trivial⟩)
    · exact .none
  · -- If
    refine .bind .any fun ps _ => ?_
    split
    · exact .bind (h.guardeds _) fun branches hbranches =>
        .bind (h.optStmts _) fun otherwise hotherwise =>
        .some (.nodeParts (plain_and hbranches.plain hotherwise.plain)
          ⟨hbranches.filling, hotherwise.filling, trivial⟩)
    · exact .none
  · -- While
    refine .bind .any fun ps _ => ?_
    split
    · exact .bind (h.expr _) fun e he => .bind (h.stmts _) fun body hbody =>
        .some (.nodeParts (plain_and he.plain hbody.plain)
          ⟨he.filling, hbody.filling, trivial⟩)
    · exact .none
  · -- For
    refine .bind .any fun ps _ => ?_
    split
    · exact .bind .any fun var _ => .bind (h.expr _) fun a ha => .bind (h.expr _) fun b hb =>
        .bind (h.optExpr _) fun step hstep => .bind (h.stmts _) fun body hbody =>
        .some (.nodeParts
          (plain_and (plain_and (plain_and ha.plain hb.plain) hstep.plain) hbody.plain)
          ⟨Nat.zero_le depth, ha.filling, hb.filling, hstep.filling, hbody.filling, trivial⟩)
    · exact .none
  · -- ForEach
    refine .bind .any fun ps _ => ?_
    split
    · exact .bind .any fun var _ => .bind (h.expr _) fun e he =>
        .bind (h.stmts _) fun body hbody =>
        .some (.nodeParts (plain_and he.plain hbody.plain)
          ⟨Nat.zero_le depth, he.filling, hbody.filling, trivial⟩)
    · exact .none
  · -- Do
    refine .bind .any fun ps _ => ?_
    split
    · exact .bind (h.stmts _) fun body hbody =>
        .some (.nodeParts hbody.plain ⟨hbody.filling, trivial⟩)
    · exact .none
  · -- Repeat
    refine .bind .any fun ps _ => ?_
    split
    · exact .bind (h.stmts _) fun body hbody => .bind (h.expr _) fun e he =>
        .some (.nodeParts (plain_and hbody.plain he.plain)
          ⟨hbody.filling, he.filling, trivial⟩)
    · exact .none
  · -- SelectCase
    refine .bind .any fun ps _ => ?_
    split
    · exact .bind (h.expr _) fun e he => .bind (h.caseBranches _) fun branches hbranches =>
        .some (.nodeParts (plain_and he.plain hbranches.plain)
          ⟨he.filling, hbranches.filling, trivial⟩)
    · exact .none
  · -- Dim
    refine .bind .any fun ps _ => ?_
    split
    · exact .bind .any fun name _ => .bind (h.exprs _) fun es hes =>
        .some (.nodeParts hes.plain ⟨Nat.zero_le depth, hes.filling, trivial⟩)
    · exact .none
  · -- Redim
    refine .bind .any fun ps _ => ?_
    split
    · exact .bind .any fun name _ => .bind (h.exprs _) fun es hes => .bind .any fun preserve _ =>
        .some (.nodeParts hes.plain ⟨Nat.zero_le depth, hes.filling, Nat.zero_le depth, trivial⟩)
    · exact .none
  · -- Enum
    refine .bind .any fun ps _ => ?_
    split
    · exact .bind .any fun name _ => .bind (h.binders _ _) fun bs hbs =>
        .some (.nodeParts hbs.plain ⟨Nat.zero_le depth, hbs.filling, trivial⟩)
    · exact .none
  · -- Try
    refine .bind .any fun ps _ => ?_
    split
    · exact .bind (h.stmts _) fun body hbody => .bind (h.optHandler _) fun handler hhandler =>
        .bind (h.optStmts _) fun cleanup hcleanup =>
        .some (.nodeParts (plain_and (plain_and hbody.plain hhandler.plain) hcleanup.plain)
          ⟨hbody.filling, hhandler.filling, hcleanup.filling, trivial⟩)
    · exact .none
  · -- Assert
    refine .bind .any fun ps _ => ?_
    split
    · exact .bind (h.expr _) fun e he => .bind (h.optExpr _) fun message hmessage =>
        .some (.nodeParts (plain_and he.plain hmessage.plain)
          ⟨he.filling, hmessage.filling, trivial⟩)
    · exact .none
  · -- Using
    refine .bind .any fun ps _ => ?_
    split
    · exact .bind .any fun name _ => .bind (h.expr _) fun e he =>
        .bind (h.stmts _) fun body hbody =>
        .some (.nodeParts (plain_and he.plain hbody.plain)
          ⟨Nat.zero_le depth, he.filling, hbody.filling, trivial⟩)
    · exact .none
  · exact .none

/-- A statement fits, a bare text as well as a kind with its parts. -/
theorem stmt_succ (j : Json) : Yields (StmtFits (depth + 1)) (Decoder.stmt? (depth + 1) j) := by
  unfold Decoder.stmt?
  split
  · exact bareStmt _
  · next heq =>
    cases heq
    split
    · exact .map ((h.binders _ _).imp fun _ hbs => .node hbs)
    · exact .map ((idents _).imp fun _ hnames => .node ⟨rfl, hnames⟩)
    · exact .map ((h.expr _).imp fun _ he => .node he)
    · exact .map ((h.expr _).imp fun _ he => .node he)
    · exact .map ((h.optExpr _).imp fun _ he => .node ⟨he.plain, filling_getD_null he.filling⟩)
    · exact .map (.all fun target => .node ⟨rfl, Nat.zero_le depth⟩)
    · exact .map (h.sub _)
    · exact .map (h.function _)
    · exact .map ((h.typeDecl _).imp fun _ hd => .node hd)
    · exact .map ((h.expr _).imp fun _ he => .node he)
    · exact .map ((h.expr _).imp fun _ he => .node he)
    · split
      · next hbare => exact .some (bareStmt _ _ hbare)
      · exact .none
      · exact h.stmtOfParts _ _
  · exact .none

/-- One level more can be opened. -/
theorem succ : DecodersFit (depth + 1) where
  expr := h.expr_succ
  exprOfParts := h.exprOfParts_succ
  exprs := h.exprs_succ
  pairs := h.pairs_succ
  pair := h.pair_succ
  namedArgs := h.namedArgs_succ
  namedArg := h.namedArg_succ
  binders := h.binders_succ
  binder := h.binder_succ
  sub := h.sub_succ
  function := h.function_succ
  method := h.method_succ
  methods := h.methods_succ
  typeDecl := h.typeDecl_succ
  guarded := h.guarded_succ
  guardeds := h.guardeds_succ
  handler := h.handler_succ
  caseTest := h.caseTest_succ
  relational := h.relational_succ
  caseBranch := h.caseBranch_succ
  caseBranches := h.caseBranches_succ
  stmt := h.stmt_succ
  stmtOfParts := h.stmtOfParts_succ
  stmts := h.stmts_succ

end Successor

end DecodersFit

/-- What is decoded fits into the depth that the decoder may open. -/
theorem decodersFit (depth : Nat) : DecodersFit depth := by
  induction depth with
  | zero => exact .zero
  | succ depth ih => exact ih.succ

end BasicScript
