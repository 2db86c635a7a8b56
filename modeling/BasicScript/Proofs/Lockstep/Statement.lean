import BasicScript.Proofs.Lockstep.Expression

/-!
# Statements in lockstep

One level of execution: if two engines run in lockstep, then so does the execution of statements one
level above them.  A statement at a place ends in a flow that the place admits; a loop takes up the
flows of its body that are meant for it, and passes on the others to the place around it.
-/

namespace BasicScript.Lockstep

variable {L : Lockstep} {cx cx' : Context} {g g' : Engine} {l : Level}
  (S : L.Sound cx cx') (G : L.Engines g g')

/-- What a loop at a place does after a round: a flow that it passes on is one that the place
admits. -/
def Round (L : Lockstep) (p : Place) (outcome : LoopStep) : Prop :=
  ∀ f, outcome = .propagate f → L.flow p f

/-- What becomes of a computation that has halted, in the statement around it. -/
def surfacing : Halt → Run Flow
  | .signal f => pure f
  | h => throw h

/-- Taking up a signal is going on after a halt. -/
theorem surface_apply (x : Run Flow) (m : Machine) :
    Run.surface x m = resume pure surfacing (x m) := by
  unfold Run.surface
  cases x m with
  | ok => rfl
  | error halt => cases halt <;> rfl

namespace Sound

include S

/-- A statement that ends normally. -/
theorem normally {x x' : Run Unit} (p : Place) (h : L.Keeps l x x') :
    L.Rel l (Run.normally x) (Run.normally x') (L.flow p) :=
  S.bind h fun _ _ => S.pure (S.flow_normal p)

/-- A signal is taken as the way in which a statement ended. -/
theorem surface {x x' : Run Flow} (p : Place) (h : L.Rel l x x' (L.flow p)) :
    L.Rel l (Run.surface x) (Run.surface x') (L.flow p) := by
  intro m m' hm
  rw [surface_apply, surface_apply]
  refine S.resume (h m m' hm) (fun _ => S.pure) (fun halt halts => ?_) (fun halt early => ?_)
  · cases halt with
    | signal f => exact S.pure (S.flow_signal p f halts)
    | failed e => exact S.halt halts
    | exhausted => exact S.halt halts
  · cases halt with
    | signal f => exact (S.early_signal f early).elim
    | failed e => rfl
    | exhausted => rfl

/-! ## Loops -/

/-- The flow of a body means something for the loop around it. -/
theorem round (p : Place) (t : ExitTarget) {f : Flow} (hf : L.flow (p.inside t) f) :
    L.Round p (f.stepOf t) :=
  fun f' h => S.flow_loop p t f f' hf h

omit S in
/-- A loop that goes on passes no flow on. -/
theorem round_next (p : Place) : L.Round p .next := nofun

omit S in
theorem round_leave (p : Place) : L.Round p .leave := nofun

/-- Going round once more. -/
theorem goRound (p : Place) {x x' : Run LoopStep} {fuel fuel' : Nat}
    (h : L.Rel .stmt x x' (L.Round p))
    (hrest : L.Rel .stmt (BasicScript.iterate fuel x) (BasicScript.iterate fuel' x') (L.flow p)) :
    L.Rel .stmt (BasicScript.iterate (fuel + 1) x) (BasicScript.iterate (fuel' + 1) x')
      (L.flow p) := by
  refine S.bind h fun outcome hround => ?_
  cases outcome with
  | next => exact hrest
  | leave => exact S.pure (S.flow_normal p)
  | propagate f => exact S.pure (hround f rfl)

/-- Going round and round with the same fuel, so both sides go round equally often. -/
theorem iterate_same (p : Place) (fuel : Nat) {x x' : Run LoopStep}
    (h : L.Rel .stmt x x' (L.Round p)) :
    L.Rel .stmt (BasicScript.iterate fuel x) (BasicScript.iterate fuel x') (L.flow p) := by
  induction fuel with
  | zero => exact S.halt S.halt_exhausted
  | succ fuel ih => exact S.goRound p h ih

/-- Going round and round, where the first side may be the first to run out of fuel. -/
theorem iterate (p : Place) {fuel fuel' : Nat} {x x' : Run LoopStep}
    (hfuel : fuel' = fuel ∨ (L.early .exhausted ∧ fuel ≤ fuel'))
    (h : L.Rel .stmt x x' (L.Round p)) :
    L.Rel .stmt (iterate fuel x) (iterate fuel' x') (L.flow p) := by
  rcases hfuel with rfl | ⟨early, hle⟩
  · exact S.iterate_same p fuel' h
  induction fuel generalizing fuel' with
  | zero => exact S.halt_early early (S.iterate_same p fuel' h)
  | succ fuel ih =>
    obtain ⟨fuel', rfl⟩ : ∃ n, fuel' = n + 1 := ⟨fuel' - 1, by omega⟩
    exact S.goRound p h (ih (by omega))

end Sound

namespace Engines

include S G

/-- A round of WHILE: the condition, and the body if it is true. -/
theorem whileRound (p : Place) (cond : Expr) (body : List Stmt) (hcond : L.rule.expr cond)
    (hbody : L.rule.stmts (p.inside .whileLoop) body) :
    L.Rel .stmt (g.whileRound cond body) (g'.whileRound cond body) (L.Round p) := by
  refine S.bind (S.ofExpr (G.eval cond hcond)) fun v _ => ?_
  split
  · refine S.bind (G.block S _ body hbody) fun f hf => ?_
    exact S.pure (S.round p .whileLoop hf)
  · exact S.pure (Sound.round_leave p)

/-- A round of DO is its body. -/
theorem doRound (p : Place) (body : List Stmt) (hbody : L.rule.stmts (p.inside .doLoop) body) :
    L.Rel .stmt (g.doRound body) (g'.doRound body) (L.Round p) :=
  S.bind (G.block S _ body hbody) fun _ hf => S.pure (S.round p .doLoop hf)

/-- A round of REPEAT: the body, and the condition after it. -/
theorem repeatRound (p : Place) (body : List Stmt) (cond : Expr)
    (hbody : L.rule.stmts (p.inside .repeatLoop) body) (hcond : L.rule.expr cond) :
    L.Rel .stmt (g.repeatRound body cond) (g'.repeatRound body cond) (L.Round p) := by
  refine S.bind (G.block S _ body hbody) fun f hf => ?_
  have hround := S.round p .repeatLoop hf
  generalize f.stepOf .repeatLoop = outcome at hround
  cases outcome with
  | next =>
    refine S.bind (S.ofExpr (G.eval cond hcond)) fun v _ => ?_
    split
    · exact S.pure (Sound.round_leave p)
    · exact S.pure (Sound.round_next p)
  | leave => exact S.pure hround
  | propagate f => exact S.pure hround

/-- A round of FOR: the test of the variable, the body and the next value. -/
theorem forRound (p : Place) (x : Ident) (last step : Value) (ascending : Bool)
    (body : List Stmt) (hbody : L.rule.stmts (p.inside .forLoop) body) :
    L.Rel .stmt (g.forRound x.name last step ascending body)
      (g'.forRound x.name last step ascending body) (L.Round p) := by
  refine S.bind (S.ofExpr (S.readVar x.name)) fun current _ => ?_
  split
  · refine S.bind (G.block S _ body hbody) fun f hf => ?_
    have hround := S.round p .forLoop hf
    generalize f.stepOf .forLoop = outcome at hround
    cases outcome with
    | next =>
      refine S.bind (S.ofExpr (S.readVar x.name)) fun current _ => ?_
      have sum : L.Yields .stmt (Run.lift (current.binary .add step))
          (Run.lift (current.binary .add step)) :=
        S.lift (Value.binary_ordinary .add current step)
          (Value.binary_gives_keyed .add current step)
      refine S.bind sum fun v hv => ?_
      exact S.bind (S.set x.name v (S.key_name x) hv) fun _ _ => S.pure (Sound.round_next p)
    | leave => exact S.pure hround
    | propagate f => exact S.pure hround
  · exact S.pure (Sound.round_leave p)

/-- FOR evaluates its bounds and its step once, and then goes round. -/
theorem forLoop (p : Place) (x : Ident) (first last : Expr) (step : Option Expr)
    (body : List Stmt) (hfirst : L.rule.expr first) (hlast : L.rule.expr last)
    (hstep : L.rule.expr? step) (hbody : L.rule.stmts (p.inside .forLoop) body) :
    L.Rel .stmt (g.forLoop x first last step body) (g'.forLoop x first last step body)
      (L.flow p) := by
  refine S.bind (S.ofExpr (G.eval first hfirst)) fun v hv => ?_
  refine S.bind (S.ofExpr (G.eval last hlast)) fun w _ => ?_
  -- The rest of the loop, once its step is known.
  have go : ∀ d : Value, L.Rel .stmt
      (if !d.isNumeric then Run.fail (.typeError "numeric STEP" d.kindName)
      else do
        Run.define x.name v
        BasicScript.iterate g.fuel
          (g.forRound x.name w d (d.compare? (.int 0) != some .lt) body))
      (if !d.isNumeric then Run.fail (.typeError "numeric STEP" d.kindName)
      else do
        Run.define x.name v
        BasicScript.iterate g'.fuel
          (g'.forRound x.name w d (d.compare? (.int 0) != some .lt) body)) (L.flow p) := by
    intro d
    split
    · exact S.fail nofun
    · refine S.bind (S.define x.name v (S.key_name x) hv) fun _ _ => ?_
      exact S.iterate p G.fuel (G.forRound S p x w d _ body hbody)
  cases step with
  | none => exact go (.int 1)
  | some e => exact S.bind (S.ofExpr (G.eval e hstep)) fun d _ => go d

/-- FOR EACH over the values of an array, by induction on them. -/
theorem eachItem (p : Place) (x : Ident) (body : List Stmt) {vs : List Value}
    (hvs : Value.AllKeyed L.key vs) (hbody : L.rule.stmts (p.inside .forLoop) body) :
    L.Rel .stmt (g.eachItem x body vs) (g'.eachItem x body vs) (L.flow p) := by
  induction vs with
  | nil => exact S.pure (S.flow_normal p)
  | cons v rest ih =>
    obtain ⟨hv, hrest⟩ := List.forall_mem_cons.mp hvs
    refine S.bind (S.define x.name v (S.key_name x) hv) fun _ _ => ?_
    refine S.bind (G.block S _ body hbody) fun f hf => ?_
    have hround := S.round p .forLoop hf
    generalize f.stepOf .forLoop = outcome at hround
    cases outcome with
    | next => exact ih hrest
    | leave => exact S.pure (S.flow_normal p)
    | propagate f => exact S.pure (hround f rfl)

/-! ## Branches -/

/-- The first branch of an IF whose condition is true, by induction on the branches. -/
theorem branches (p : Place) (otherwise : Option (List Stmt)) (bs : List Guarded)
    (h : L.rule.guardeds p bs) (hotherwise : L.rule.stmts? p otherwise) :
    L.Rel .stmt (g.branches otherwise bs) (g'.branches otherwise bs) (L.flow p) := by
  induction bs with
  | nil =>
    cases otherwise with
    | none => exact S.pure (S.flow_normal p)
    | some body => exact G.block S p body hotherwise
  | cons b rest ih =>
    obtain ⟨cond, body⟩ := b
    simp only [Rule.guardeds, Bool.and_eq_true] at h
    refine S.bind (S.ofExpr (G.eval cond h.1.1)) fun v _ => ?_
    split
    · exact G.block S p body h.1.2
    · exact ih h.2

/-- A CASE compares the selector with its values one after the other. -/
theorem anyEqual (selector : Value) (es : List Expr) (h : L.rule.exprs es) :
    L.Keeps .expr (g.anyEqual selector es) (g'.anyEqual selector es) := by
  induction es with
  | nil => exact S.skip _
  | cons e rest ih =>
    rw [Rule.exprs, Bool.and_eq_true] at h
    refine S.bind (G.eval e h.1) fun v _ => ?_
    split
    · exact S.skip _
    · exact ih h.2

/-- The test of a CASE, of whatever kind it is. -/
theorem testCase (selector : Value) (test : CaseTest) (h : L.rule.caseTest test) :
    L.Keeps .expr (g.testCase selector test) (g'.testCase selector test) := by
  cases test with
  | values es => exact G.anyEqual S selector es h
  | relational op e => exact S.bind (G.eval e h) fun _ _ => S.skip _
  | otherwise => exact S.skip _

/-- The first branch of a SELECT that the selector fits, or CASE ELSE. -/
theorem cases (p : Place) (selector : Value) (all bs : List CaseBranch)
    (hall : L.rule.caseBranches p all) (h : L.rule.caseBranches p bs) :
    L.Rel .stmt (g.cases selector all bs) (g'.cases selector all bs) (L.flow p) := by
  induction bs with
  | nil =>
    unfold Engine.cases
    split
    · next b hb =>
      exact G.block S p b.body (Rule.stmts_of_mem_caseBranches hall b (List.mem_of_find?_eq_some hb))
    · exact S.pure (S.flow_normal p)
  | cons b rest ih =>
    obtain ⟨test, body⟩ := b
    simp only [Rule.caseBranches, Bool.and_eq_true] at h
    refine S.bind (S.ofExpr (G.testCase S selector test h.1.1)) fun hit _ => ?_
    split
    · exact G.block S p body h.1.2
    · exact ih h.2

/-! ## Failures -/

/-- What becomes of a TRY whose body has halted. -/
def handling (g : Engine) (handler : Option Handler) : Halt → Run Flow
  | .failed e =>
    match handler with
    | none => throw (.failed e)
    | some ⟨none, caught⟩ => g.block caught
    | some ⟨some x, caught⟩ => do
      Run.modifyChain (·.bind x.name e.toValue)
      g.block caught
  | h => throw h

/-- What becomes of a TRY that has halted before its FINALLY block. -/
def finishing (g : Engine) (cleanup : List Stmt) : Halt → Run Flow
  | .exhausted => throw .exhausted
  | h => g.finish cleanup (.error h)

omit S G in
/-- A handler is a way to go on after a halt. -/
theorem guarded_apply (g : Engine) (body : List Stmt) (handler : Option Handler) (m : Machine) :
    g.guarded body handler m = resume pure (handling g handler) (g.block body m) := by
  unfold Engine.guarded
  rcases handler with _ | ⟨_ | x, caught⟩
  · cases g.block body m with
    | ok => rfl
    | error halt => cases halt <;> rfl
  · cases g.block body m with
    | ok => rfl
    | error halt => cases halt <;> rfl
  · cases g.block body m with
    | ok => rfl
    | error halt => cases halt <;> rfl

/-- A handler starts where the body has failed, with the failure in its variable. -/
theorem guarded (p : Place) (body : List Stmt) (handler : Option Handler)
    (hbody : L.rule.stmts p body) (hhandler : L.rule.handler? p handler)
    (hvar : L.rule.allows p (.attempt (handler.bind (·.var)))) :
    L.Rel .stmt (g.guarded body handler) (g'.guarded body handler) (L.flow p) := by
  intro m m' hm
  rw [guarded_apply, guarded_apply]
  refine S.resume (G.block S p body hbody m m' hm) (fun _ => S.pure) (fun halt halts => ?_)
    (fun halt early => ?_)
  · cases halt with
    | signal f => exact S.halt halts
    | exhausted => exact S.halt halts
    | failed e =>
      rcases handler with _ | ⟨_ | x, caught⟩
      · exact S.halt halts
      · exact G.block S p caught hhandler
      · exact S.bind (S.bindCaught p x e hvar) fun _ _ => G.block S p caught hhandler
  · cases halt with
    | signal f => exact (S.early_signal f early).elim
    | failed e => exact (S.early_failed p _ e hvar early).elim
    | exhausted => rfl

/-- What a FINALLY block does not decide is as it was before. -/
theorem finish (p : Place) (cleanup : List Stmt) (outcome : Except Halt Flow)
    (hcleanup : L.rule.stmts p cleanup) (hok : ∀ f, outcome = .ok f → L.flow p f)
    (herror : ∀ h, outcome = .error h → L.halt h) :
    L.Rel .stmt (g.finish cleanup outcome) (g'.finish cleanup outcome) (L.flow p) := by
  refine S.bind (G.block S p cleanup hcleanup) fun f hf => ?_
  cases f with
  | normal =>
    cases outcome with
    | ok f => exact S.pure (hok f rfl)
    | error h => exact S.halt (herror h rfl)
  | _ => exact S.pure hf

omit S G in
/-- A FINALLY is a way to go on after everything, halts included. -/
theorem attempt_apply (g : Engine) (body : List Stmt) (handler : Option Handler)
    (cleanup : List Stmt) (m : Machine) :
    g.attempt body handler (some cleanup) m =
      resume (fun f => g.finish cleanup (.ok f)) (finishing g cleanup)
        (g.guarded body handler m) := by
  unfold Engine.attempt
  dsimp only
  cases g.guarded body handler m with
  | ok => rfl
  | error halt => cases halt <;> rfl

/-- The FINALLY block runs after each outcome of the rest except that the fuel is used up. -/
theorem attempt (p : Place) (body : List Stmt) (handler : Option Handler)
    (cleanup : Option (List Stmt)) (hbody : L.rule.stmts p body)
    (hhandler : L.rule.handler? p handler) (hcleanup : L.rule.stmts? p cleanup)
    (hvar : L.rule.allows p (.attempt (handler.bind (·.var)))) :
    L.Rel .stmt (g.attempt body handler cleanup) (g'.attempt body handler cleanup) (L.flow p) := by
  have hguarded := G.guarded S p body handler hbody hhandler hvar
  cases cleanup with
  | none => exact hguarded
  | some cleanup =>
    intro m m' hm
    rw [attempt_apply, attempt_apply]
    refine S.resume (hguarded m m' hm) (fun f hf => ?_) (fun halt halts => ?_)
      (fun halt early => ?_)
    · exact G.finish S p cleanup (.ok f) hcleanup (fun f eq => by cases eq; exact hf) nofun
    · have finished := G.finish S p cleanup (.error halt) hcleanup nofun
        fun h eq => by cases eq; exact halts
      cases halt with
      | exhausted => exact S.halt halts
      | failed e => exact finished
      | signal f => exact finished
    · cases halt with
      | exhausted => rfl
      | failed e => exact (S.early_failed p _ e hvar early).elim
      | signal f => exact (S.early_signal f early).elim

/-! ## Assignments -/

/-- The indices on the way to the target of a write are evaluated in order. -/
theorem steps (path : List TargetStep) (h : ∀ i, .index i ∈ path → L.rule.expr i) :
    L.Keeps .expr (g.steps path) (g'.steps path) := by
  induction path with
  | nil => exact S.skip _
  | cons a rest ih =>
    have hrest := ih fun i hi => h i (List.mem_cons_of_mem a hi)
    cases a with
    | field name => exact S.bind hrest fun _ _ => S.skip _
    | index e =>
      exact S.bind (G.eval e (h e List.mem_cons_self)) fun _ _ => S.bind hrest fun _ _ => S.skip _

omit G in
/-- Whether a name is a constant, and what follows from it. -/
theorem unlessConst {α : Type} {Q : α → Prop} {x x' : Run α} (name : String)
    (h : L.Rel .stmt x x' Q) :
    L.Rel .stmt
      (do if ← Run.withChain (·.isConst name) then Run.fail (.constAssignment name) else x)
      (do if ← Run.withChain (·.isConst name) then Run.fail (.constAssignment name) else x') Q := by
  have seen : L.Keeps .stmt (Run.withChain (·.isConst name)) (Run.withChain (·.isConst name)) :=
    S.withChain (fun _ _ alike => congrFun alike.isConst name) fun _ _ => trivial
  refine S.bind seen fun const _ => ?_
  split
  · exact S.fail nofun
  · exact h

omit G in
/-- The value of a variable on which a write is based. -/
theorem current (name : String) :
    L.Yields l (Run.withChain fun c => (c.lookup? name).getD .nil)
      (Run.withChain fun c => (c.lookup? name).getD .nil) :=
  S.withChain (fun _ _ alike => by rw [alike.lookup?]) fun _ hc =>
    Value.keyed_getD fun _ => hc.lookup?

/-- An indexed assignment evaluates its indices and its value before it writes. -/
theorem assignIndex (x : Ident) (is : List Expr) (value : Expr) (his : L.rule.exprs is)
    (hvalue : L.rule.expr value) :
    L.Keeps .stmt (g.assignIndex cx x is value) (g'.assignIndex cx' x is value) := by
  refine unlessConst S x.name ?_
  refine S.bind (S.ofExpr (G.values S is his)) fun vs _ => ?_
  refine S.bind (S.ofExpr (G.eval value hvalue)) fun v hv => ?_
  refine S.bind (current S x.name) fun old hold => ?_
  rw [S.maxElements]
  have written := S.lift (l := .stmt) (Value.writeAt_ordinary cx.config.maxElements v old vs)
    (Value.writeAt_gives_keyed S.key_normal _ hold hv vs)
  exact S.bind written fun updated hupdated => S.set x.name updated (S.key_name x) hupdated

/-- The write hooks are offered a write, on the same object in both runs. -/
theorem offer (object : Expr) (place : Option (Ident × List Value.Step)) (member : String)
    (v : Value) (h : L.rule.expr object) :
    L.Keeps .expr (g.offer cx object place member v) (g'.offer cx' object place member v) := by
  unfold Engine.offer
  rw [S.host]
  split
  · exact S.skip _
  -- The rest, once the object that is written to is known.
  have go : ∀ target : Value, L.Keeps .expr
      (do
        Run.log (cx.host.hooks.assign target member v).events
        return (cx.host.hooks.assign target member v).claimed)
      (do
        Run.log (cx.host.hooks.assign target member v).events
        return (cx.host.hooks.assign target member v).claimed) :=
    fun target => S.bind (S.log _) fun _ _ => S.skip _
  rcases place with _ | ⟨root, path⟩
  · exact S.bind (G.receiver S object h) fun target _ => go target
  · refine S.bind (G.receiver S (.var root) rfl) fun base _ => ?_
    refine Rel.look fun m m' hm => ?_
    rw [(S.alike hm).follow S.host]
    exact go _

/-- What is evaluated before a write is related in both runs. -/
theorem beforeWrite (object value : Expr) (h : L.rule.expr object) (hvalue : L.rule.expr value) :
    L.Rel .expr (g.beforeWrite object value) (g'.beforeWrite object value)
      fun what => what.1.Keyed L.key := by
  refine S.bind (G.eval value hvalue) fun v hv => ?_
  cases htarget : assignTarget? object with
  | none => exact S.bind (S.skip none) fun _ _ => S.pure hv
  | some target =>
    have hpath := G.steps S target.2 (Rule.expr_of_assignTarget? htarget h)
    exact S.bind (S.bind hpath fun vs _ => S.skip (some (target.1, vs))) fun _ _ => S.pure hv

/-- Related writes write related values. -/
theorem write (object : Expr) (member : Ident) (what : Value × Option (Ident × List Value.Step))
    (h : L.rule.expr object) (hwhat : what.1.Keyed L.key) :
    L.Keeps .stmt (g.write cx object member what) (g'.write cx' object member what) := by
  obtain ⟨v, place⟩ := what
  refine S.bind (S.ofExpr (G.offer S object place member.name v h)) fun claimed _ => ?_
  split
  · exact S.skip ()
  rcases place with _ | ⟨x, vs⟩
  · exact S.skip ()
  refine unlessConst S x.name ?_
  refine S.bind (current S x.name) fun old hold => ?_
  exact S.set x.name _ (S.key_name x)
    (Value.keyed_setBelow S.key_normal hold hwhat vs member.name)

/-- **An assignment to a member**: what comes before the write, and the write. -/
theorem assignMember (object : Expr) (member : Ident) (value : Expr) (h : L.rule.expr object)
    (hvalue : L.rule.expr value) :
    L.Keeps .stmt (g.assignMember cx object member value)
      (g'.assignMember cx' object member value) :=
  S.bind (S.ofExpr (G.beforeWrite S object value h hvalue)) fun what hwhat =>
    G.write S object member what h hwhat

omit G in
theorem defineAll (names : List (Ident × Value)) (h : ∀ a ∈ names, a.2.Keyed L.key) :
    L.Keeps .stmt (defineAll names) (defineAll names) := by
  induction names with
  | nil => exact S.skip ()
  | cons a rest ih =>
    obtain ⟨ha, hrest⟩ := List.forall_mem_cons.mp h
    exact S.bind (S.define a.1.name a.2 (S.key_name a.1) ha) fun _ _ => ih hrest

omit G in
/-- A value is taken apart into the same names in both runs. -/
theorem destructure (names : List Ident) {v : Value} (hv : v.Keyed L.key) :
    L.Keeps .stmt (destructure names v) (destructure names v) := by
  cases v with
  | array items =>
    refine defineAll S _ fun a ha => ?_
    exact Value.keyed_array.mp hv a.2 (List.of_mem_zip ha).2
  | map fields =>
    refine defineAll S _ fun a ha => ?_
    obtain ⟨n, -, rfl⟩ := List.mem_map.mp ha
    exact Value.keyed_getD fun _ => Value.keyed_of_lookup? (Value.keyed_map.mp hv)
  | _ => exact S.fail nofun

/-! ## Declarations -/

/-- LOCAL evaluates and binds its names one after the other. -/
theorem locals (bs : List Binder) (h : L.rule.binders bs) :
    L.Keeps .stmt (g.locals bs) (g'.locals bs) := by
  induction bs with
  | nil => exact S.skip ()
  | cons b rest ih =>
    obtain ⟨name, init⟩ := b
    rw [Rule.binders, Bool.and_eq_true] at h
    refine S.bind (S.ofExpr (G.eval? S init h.1)) fun v hv => ?_
    exact S.bind (S.defineLocal name.name v (S.key_name name) hv) fun _ _ => ih h.2

/-- ENUM counts its members up from the last value that was given. -/
theorem enumerate (name : Ident) (next : Int) (members : List Binder)
    (h : L.rule.binders members) :
    L.Keeps .stmt (g.enumerate name next members) (g'.enumerate name next members) := by
  induction members generalizing next with
  | nil => exact S.skip ()
  | cons b rest ih =>
    obtain ⟨member, init⟩ := b
    rw [Rule.binders, Bool.and_eq_true] at h
    have hname := Ident.key_joined S.key_normal name member
    cases init with
    | none =>
      refine S.bind (S.pure (Q := Value.Keyed L.key) (.int (Int64.ofInt next))) fun v hv => ?_
      exact S.bind (S.defineConst _ v hname hv) fun _ _ => ih _ h.2
    | some e =>
      refine S.bind (S.ofExpr (G.eval e h.1)) fun v hv => ?_
      exact S.bind (S.defineConst _ v hname hv) fun _ _ => ih _ h.2

/-- The sizes of an array are evaluated one after the other. -/
theorem sizes (es : List Expr) (h : L.rule.exprs es) :
    L.Keeps .expr (g.sizes es) (g'.sizes es) := by
  induction es with
  | nil => exact S.skip _
  | cons e rest ih =>
    rw [Rule.exprs, Bool.and_eq_true] at h
    refine S.bind (G.eval e h.1) fun v _ => ?_
    have size : L.Keeps .expr (Run.lift v.truncated) (Run.lift v.truncated) :=
      S.lift (Value.truncated_ordinary v) fun _ _ => trivial
    exact S.bind size fun n _ => S.bind (ih h.2) fun _ _ => S.skip _

omit G in
/-- Both runs have the same cap on the elements of an array. -/
theorem checkSizes (what : String) (sizes : List Nat) :
    L.Keeps l (checkSizes cx what sizes) (checkSizes cx' what sizes) := by
  unfold BasicScript.checkSizes
  rw [S.maxElements]
  dsimp only
  split
  · exact S.fail nofun
  · exact S.skip ()

/-- DIM makes an array of the sizes that it has evaluated. -/
theorem dim (x : Ident) (es : List Expr) (h : L.rule.exprs es) :
    L.Keeps .stmt (g.dim cx x es) (g'.dim cx' x es) := by
  refine S.bind (S.ofExpr (G.sizes S es h)) fun sizes _ => ?_
  refine S.bind (checkSizes S _ sizes) fun _ _ => ?_
  exact S.define x.name _ (S.key_name x) (Value.keyed_reshape (fun _ h => by cases h) sizes)

/-- REDIM makes an array of new sizes, with or without what the old one held. -/
theorem redim (x : Ident) (es : List Expr) (preserve : Bool) (h : L.rule.exprs es) :
    L.Keeps .stmt (g.redim cx x es preserve) (g'.redim cx' x es preserve) := by
  refine unlessConst S x.name ?_
  refine S.bind (S.ofExpr (G.sizes S es h)) fun sizes _ => ?_
  refine S.noted _ ?_
  refine S.bind (checkSizes S _ sizes) fun _ _ => ?_
  have seen := S.withChain (l := .stmt) (f := fun c => if preserve then c.lookup? x.name else none)
    (Q := fun old => ∀ v, old = some v → v.Keyed L.key)
    (fun _ _ alike => by rw [alike.lookup?]) fun c hc v hv => by
      split at hv
      · exact hc.lookup? hv
      · cases hv
  refine S.bind seen fun old hold => ?_
  exact S.set x.name _ (S.key_name x) (Value.keyed_reshape hold sizes)

/-! ## Statements -/

omit S G in
/-- A BREAKPOINT notes the bindings of the innermost scope. -/
theorem execStep_breakpoint (cx : Context) (g : Engine) (m : Machine) :
    BasicScript.execStep cx g .breakpoint m =
      (if cx.config.debug then do
        Run.note (breakpointNote m.chain.top)
        return .normal
      else return .normal : Run Flow) m := by
  unfold BasicScript.execStep
  dsimp only
  split <;> rfl

/-- **One level of execution.** -/
theorem execStep (p : Place) (s : Stmt) (h : L.rule.stmt p s) :
    L.Rel .stmt (execStep cx g s) (execStep cx' g' s) (L.flow p) := by
  obtain ⟨hshape, hparts⟩ := Bool.and_eq_true_iff.mp h
  cases s with
  | optionExplicit => exact S.normally p (S.optionExplicit p hshape)
  | locals bs => exact S.normally p (G.locals S bs hparts)
  | globals names =>
    exact S.normally p (S.foldChain fun n hn => S.addGlobal p names n hshape hn)
  | define x e =>
    refine S.normally p (S.bind (S.ofExpr (G.eval e hparts)) fun v hv => ?_)
    exact S.define x.name v (S.key_name x) hv
  | assign x e =>
    refine S.normally p (S.bind (S.ofExpr (G.eval e hparts)) fun v hv => ?_)
    exact S.set x.name v (S.key_name x) hv
  | constant x e =>
    refine S.normally p (S.bind (S.ofExpr (G.eval e hparts)) fun v hv => ?_)
    exact S.defineConst x.name v (S.key_name x) hv
  | assignIndex x is e =>
    rw [Rule.parts, Bool.and_eq_true] at hparts
    exact S.normally p (G.assignIndex S x is e hparts.1 hparts.2)
  | assignMember object member e =>
    rw [Rule.parts, Bool.and_eq_true] at hparts
    exact S.normally p (G.assignMember S object member e hparts.1 hparts.2)
  | destructure names e =>
    exact S.normally p (S.bind (S.ofExpr (G.eval e hparts)) fun v hv => destructure S names hv)
  | print e =>
    refine S.bind (S.ofExpr (G.eval e hparts)) fun v hv => ?_
    exact S.bind (S.reply "PRINT" (.cons hv nofun)) fun _ _ => S.pure (S.flow_normal p)
  | expr e =>
    exact S.bind (S.ofExpr (G.eval e hparts)) fun _ _ => S.pure (S.flow_normal p)
  | call name args named =>
    rw [Rule.parts, Bool.and_eq_true] at hparts
    refine S.bind (S.ofExpr (G.items S args hparts.1)) fun vs hvs => ?_
    refine S.bind (S.ofExpr (G.named S named hparts.2)) fun ns hns => ?_
    refine S.bind (S.ofExpr (G.dispatch S hvs name.name hns)) fun _ _ => ?_
    exact S.pure (S.flow_normal p)
  | branch bs otherwise =>
    rw [Rule.parts, Bool.and_eq_true] at hparts
    exact G.branches S p otherwise bs hparts.1 hparts.2
  | whileLoop cond body =>
    rw [Rule.parts, Bool.and_eq_true] at hparts
    exact S.iterate p G.fuel (G.whileRound S p cond body hparts.1 hparts.2)
  | forLoop x first last step body =>
    simp only [Rule.parts, Bool.and_eq_true] at hparts
    exact G.forLoop S p x first last step body hparts.1.1.1 hparts.1.1.2 hparts.1.2 hparts.2
  | forEach x e body =>
    rw [Rule.parts, Bool.and_eq_true] at hparts
    refine S.bind (S.ofExpr (G.eval e hparts.1)) fun v hv => ?_
    exact G.eachItem S p x body (Value.allKeyed_elementsOf S.key_normal hv) hparts.2
  | doLoop body =>
    exact S.iterate p G.fuel (G.doRound S p body hparts)
  | repeatLoop body cond =>
    rw [Rule.parts, Bool.and_eq_true] at hparts
    exact S.iterate p G.fuel (G.repeatRound S p body cond hparts.1 hparts.2)
  | select e bs =>
    rw [Rule.parts, Bool.and_eq_true] at hparts
    refine S.bind (S.ofExpr (G.eval e hparts.1)) fun v _ => ?_
    exact G.cases S p v bs bs hparts.2 hparts.2
  | returnWith e =>
    exact S.bind (S.ofExpr (G.eval? S e hparts)) fun v hv => S.pure (S.flow_returned p v hv)
  | breakLoop => exact S.pure (S.flow_broke p hshape)
  | continueLoop => exact S.pure (S.flow_continued p hshape)
  | exit t => exact S.pure (S.flow_exited p t hshape)
  | dim x es => exact S.normally p (G.dim S x es hparts)
  | redim x es preserve => exact S.normally p (G.redim S x es preserve hparts)
  | procedure q => exact S.pure (S.flow_normal p)
  | typeBlock d => exact S.normally p (S.declareType d hparts)
  | enum name members => exact S.normally p (G.enumerate S name 0 members hparts)
  | attempt body handler cleanup =>
    simp only [Rule.parts, Bool.and_eq_true] at hparts
    have hvar : L.rule.allows p (.attempt (handler.bind (·.var))) := by
      rcases handler with _ | ⟨x, caught⟩ <;> exact hshape
    exact G.attempt S p body handler cleanup hparts.1.1 hparts.1.2 hparts.2 hvar
  | raise e => exact S.bind (S.ofExpr (G.eval e hparts)) fun v _ => S.fail nofun
  | assertion cond message =>
    rw [Rule.parts, Bool.and_eq_true] at hparts
    refine S.bind (S.ofExpr (G.eval cond hparts.1)) fun v _ => ?_
    split
    · exact S.pure (S.flow_normal p)
    · cases message with
      | none => exact S.fail nofun
      | some e => exact S.bind (S.ofExpr (G.eval e hparts.2)) fun v _ => S.fail nofun
  | «using» x e body =>
    rw [Rule.parts, Bool.and_eq_true] at hparts
    refine S.bind (S.ofExpr (G.eval e hparts.1)) fun v hv => ?_
    exact S.inResource (S.key_name x) hv (G.block S p body hparts.2)
  | debugPrint e =>
    unfold BasicScript.execStep
    dsimp only
    rw [S.debugPrint p hshape]
    split
    · refine S.bind (S.ofExpr (G.eval e hparts)) fun v _ => ?_
      exact S.bind (S.ofExpr (S.log _)) fun _ _ => S.pure (S.flow_normal p)
    · exact S.pure (S.flow_normal p)
  | breakpoint =>
    intro m m' hm
    have hnote : breakpointNote m'.chain.top = breakpointNote m.chain.top := by
      unfold breakpointNote
      rw [(S.alike hm).vars]
    rw [execStep_breakpoint, execStep_breakpoint, hnote]
    exact S.noted _ (S.pure (S.flow_normal p)) m m' hm

end Engines

end BasicScript.Lockstep
