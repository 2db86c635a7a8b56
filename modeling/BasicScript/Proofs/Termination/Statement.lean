import BasicScript.Proofs.Termination.Expression

/-!
# Statements that finish

One level of execution.  FOR EACH goes through the elements of a value that is there before its
first round, and a TRY runs its body, its handler and its FINALLY block once each, whatever it
catches.
-/

namespace BasicScript

open Rule (loopFree)
open Run (Finishes)

variable {α : Type} {cx : Context} {N k n : Nat}

namespace Engine

variable {g : Engine}

namespace Handles

variable (H : g.Handles cx N k n)
include H

/-! ### Parts of statements -/

/-- FOR EACH goes through the elements that were there when it started. -/
theorem eachItem (p : Place) (x : Ident) (body : List Stmt) (vs : List Value)
    (h : loopFree.stmts p body) (hsize : sizeOf body < n) :
    (g.eachItem x body vs).Finishes cx N k := by
  induction vs with
  | nil => exact .pure _
  | cons v rest ih =>
    refine .bind (.define x.name v) fun _ => .bind (H.block p body h hsize) fun f => ?_
    split
    · exact ih
    · exact .pure _
    · exact .pure _

/-- The branches of an IF finish, by induction on them. -/
theorem branches (p : Place) (otherwise : Option (List Stmt)) (bs : List Guarded)
    (h : loopFree.guardeds p bs) (hotherwise : loopFree.stmts? p otherwise)
    (hsize : sizeOf bs < n) (hsize' : sizeOf otherwise < n) :
    (g.branches otherwise bs).Finishes cx N k := by
  induction bs with
  | nil =>
    cases otherwise with
    | none => exact .pure _
    | some body =>
      rw [Option.some.sizeOf_spec] at hsize'
      exact H.block p body hotherwise (by omega)
  | cons b rest ih =>
    obtain ⟨cond, body⟩ := b
    simp only [Rule.guardeds, Bool.and_eq_true] at h
    rw [List.cons.sizeOf_spec, Guarded.mk.sizeOf_spec] at hsize
    refine .bind (H.eval cond h.1.1 (by omega)) fun v => ?_
    split
    · exact H.block p body h.1.2 (by omega)
    · exact ih h.2 (by omega)

/-- The comparisons of a CASE finish, by induction on its values. -/
theorem anyEqual (selector : Value) (es : List Expr) (h : loopFree.exprs es)
    (hsize : sizeOf es < n) : (g.anyEqual selector es).Finishes cx N k := by
  induction es with
  | nil => exact .pure _
  | cons e rest ih =>
    rw [Rule.exprs, Bool.and_eq_true] at h
    rw [List.cons.sizeOf_spec] at hsize
    refine .bind (H.eval e h.1 (by omega)) fun v => ?_
    split
    · exact .pure _
    · exact ih h.2 (by omega)

/-- The test of a CASE finishes, of whatever kind it is. -/
theorem testCase (selector : Value) (test : CaseTest) (h : loopFree.caseTest test)
    (hsize : sizeOf test < n) : (g.testCase selector test).Finishes cx N k := by
  cases test with
  | values es =>
    rw [CaseTest.values.sizeOf_spec] at hsize
    exact H.anyEqual selector es h (by omega)
  | relational op e =>
    rw [CaseTest.relational.sizeOf_spec] at hsize
    exact .bind (H.eval e h (by omega)) fun _ => .pure _
  | otherwise => exact .pure _

theorem cases (p : Place) (selector : Value) (all bs : List CaseBranch)
    (hall : loopFree.caseBranches p all) (h : loopFree.caseBranches p bs)
    (hsize : sizeOf all < n) (hsize' : sizeOf bs < n) :
    (g.cases selector all bs).Finishes cx N k := by
  induction bs with
  | nil =>
    unfold Engine.cases
    split
    · next b hb =>
      have hmem := List.mem_of_find?_eq_some hb
      have hbranch := List.sizeOf_lt_of_mem hmem
      have hbody := Rule.stmts_of_mem_caseBranches hall b hmem
      obtain ⟨test, body⟩ := b
      rw [CaseBranch.mk.sizeOf_spec] at hbranch
      exact H.block p body hbody (by omega)
    · exact .pure _
  | cons b rest ih =>
    obtain ⟨test, body⟩ := b
    simp only [Rule.caseBranches, Bool.and_eq_true] at h
    rw [List.cons.sizeOf_spec, CaseBranch.mk.sizeOf_spec] at hsize'
    refine .bind (H.testCase selector test h.1.1 (by omega)) fun hit => ?_
    split
    · exact H.block p body h.1.2 (by omega)
    · exact ih h.2 (by omega)

/-- What a TRY guards finishes, and so does its handler. -/
theorem guarded (p : Place) (body : List Stmt) (handler : Option Handler)
    (hbody : loopFree.stmts p body) (hhandler : loopFree.handler? p handler)
    (hsize : sizeOf body < n) (hsize' : sizeOf handler < n) :
    (g.guarded body handler).Finishes cx N k := by
  intro m hm
  rw [Lockstep.Engines.guarded_apply]
  refine Finishes.resume (H.block p body hbody hsize m hm) .pure fun halted hhalted => ?_
  cases halted with
  | signal f => exact .halt nofun
  | exhausted => exact (hhalted rfl).elim
  | failed e =>
    rcases handler with _ | ⟨x, caught⟩
    · exact .halt nofun
    rw [Option.some.sizeOf_spec, Handler.mk.sizeOf_spec] at hsize'
    have handled := H.block p caught hhandler (by omega)
    cases x with
    | none => exact handled
    | some x => exact .bind (.modifyChain _) fun _ => handled

/-- A FINALLY finishes, whatever the outcome before it. -/
theorem finish (p : Place) (cleanup : List Stmt) (outcome : Except Halt Flow)
    (h : loopFree.stmts p cleanup) (hsize : sizeOf cleanup < n)
    (houtcome : outcome ≠ .error .exhausted) : (g.finish cleanup outcome).Finishes cx N k := by
  refine .bind (H.block p cleanup h hsize) fun f => ?_
  cases f with
  | normal =>
    cases outcome with
    | ok f => exact .pure f
    | error h => exact .halt fun eq => houtcome (congrArg _ eq)
  | _ => exact .pure _

/-- A TRY finishes, with a handler, a FINALLY or both. -/
theorem attempt (p : Place) (body : List Stmt) (handler : Option Handler)
    (cleanup : Option (List Stmt)) (hbody : loopFree.stmts p body)
    (hhandler : loopFree.handler? p handler) (hcleanup : loopFree.stmts? p cleanup)
    (hsize : sizeOf body < n) (hsize' : sizeOf handler < n) (hsize'' : sizeOf cleanup < n) :
    (g.attempt body handler cleanup).Finishes cx N k := by
  have hguarded := H.guarded p body handler hbody hhandler hsize hsize'
  cases cleanup with
  | none => exact hguarded
  | some cleanup =>
    rw [Option.some.sizeOf_spec] at hsize''
    have finished : ∀ outcome, outcome ≠ .error .exhausted →
        (g.finish cleanup outcome).Finishes cx N k :=
      fun outcome => H.finish p cleanup outcome hcleanup (by omega)
    intro m hm
    rw [Lockstep.Engines.attempt_apply]
    refine Finishes.resume (hguarded m hm) (fun f => finished _ nofun) fun halted hhalted => ?_
    cases halted with
    | exhausted => exact (hhalted rfl).elim
    | failed e => exact finished (.error (.failed e)) nofun
    | signal f => exact finished (.error (.signal f)) nofun

/-- The indices on the way to the target of a write finish, by induction on the way. -/
theorem steps (path : List TargetStep)
    (h : ∀ i, .index i ∈ path → loopFree.expr i ∧ sizeOf i < n) :
    (g.steps path).Finishes cx N k := by
  induction path with
  | nil => exact .pure _
  | cons a rest ih =>
    have hrest := ih fun i hi => h i (List.mem_cons_of_mem a hi)
    cases a with
    | field name => exact .bind hrest fun _ => .pure _
    | index e =>
      have he := h e List.mem_cons_self
      exact .bind (H.eval e he.1 he.2) fun _ => .bind hrest fun _ => .pure _

/-- The names of a LOCAL finish, by induction on them. -/
theorem locals (bs : List Binder) (h : loopFree.binders bs) (hsize : sizeOf bs < n) :
    (g.locals bs).Finishes cx N k := by
  induction bs with
  | nil => exact .pure _
  | cons b rest ih =>
    obtain ⟨name, init⟩ := b
    rw [Rule.binders, Bool.and_eq_true] at h
    rw [List.cons.sizeOf_spec, Binder.mk.sizeOf_spec] at hsize
    refine .bind (H.eval? init h.1 (by omega)) fun v => ?_
    exact .bind (.writeChain _) fun _ => ih h.2 (by omega)

/-- The members of an ENUM finish, by induction on them. -/
theorem enumerate (name : Ident) (next : Int) (members : List Binder)
    (h : loopFree.binders members) (hsize : sizeOf members < n) :
    (g.enumerate name next members).Finishes cx N k := by
  induction members generalizing next with
  | nil => exact .pure _
  | cons b rest ih =>
    obtain ⟨member, init⟩ := b
    rw [Rule.binders, Bool.and_eq_true] at h
    rw [List.cons.sizeOf_spec, Binder.mk.sizeOf_spec] at hsize
    cases init with
    | none => exact .bind (.pure _) fun v => .bind (.writeChain _) fun _ => ih _ h.2 (by omega)
    | some e =>
      rw [Option.some.sizeOf_spec] at hsize
      refine .bind (H.eval e h.1 (by omega)) fun v => ?_
      exact .bind (.writeChain _) fun _ => ih _ h.2 (by omega)

theorem sizes (es : List Expr) (h : loopFree.exprs es) (hsize : sizeOf es < n) :
    (g.sizes es).Finishes cx N k := by
  induction es with
  | nil => exact .pure _
  | cons e rest ih =>
    rw [Rule.exprs, Bool.and_eq_true] at h
    rw [List.cons.sizeOf_spec] at hsize
    refine .bind (H.eval e h.1 (by omega)) fun v => .bind (.lift _) fun _ => ?_
    exact .bind (ih h.2 (by omega)) fun _ => .pure _

/-- The top level of a program finishes, by induction on its statements. -/
theorem topLevel (p : Place) (body : List Stmt)
    (h : loopFree.stmts p body) (hsize : sizeOf body < n) :
    (g.topLevel body).Finishes cx N k := by
  induction body with
  | nil => exact .pure _
  | cons s rest ih =>
    rw [Rule.stmts, Bool.and_eq_true] at h
    rw [List.cons.sizeOf_spec] at hsize
    refine .bind (H.exec p s h.1 (by omega)) fun f => ?_
    cases f with
    | normal => exact ih h.2 (by omega)
    | returned | exited => exact .pure _
    | broke | continued => exact .fail _

end Handles

namespace Serves

variable (H : g.Serves cx N k n)
include H

/-! ### Statements -/

omit H in
/-- Whether a name is a constant, and what follows from it. -/
theorem unlessConst {x : Run α} (name : String) (h : x.Finishes cx N k) :
    (do
      if ← Run.withChain (·.isConst name) then Run.fail (.constAssignment name) else x
      : Run α).Finishes cx N k := by
  refine .bind (.withChain _) fun const => ?_
  split
  · exact .fail _
  · exact h

/-- An indexed assignment finishes. -/
theorem assignIndex (x : Ident) (is : List Expr) (value : Expr) (his : loopFree.exprs is)
    (hvalue : loopFree.expr value) (hsize : sizeOf is < n) (hsize' : sizeOf value < n) :
    (g.assignIndex cx x is value).Finishes cx N k := by
  refine unlessConst x.name (.bind (H.values is his hsize) fun vs => ?_)
  refine .bind (H.eval value hvalue hsize') fun v => .bind (.withChain _) fun current => ?_
  exact .bind (.lift _) fun _ => .writeChain _

/-- What is written to is smaller than the member, be it found through the variable below it or
not. -/
theorem offer (object : Expr) (place : Option (Ident × List Value.Step)) (member : String)
    (v : Value) (h : loopFree.expr object) (hsize : sizeOf object < n)
    (hplace : ∀ root path, place = some (root, path) → sizeOf (Expr.var root) < n) :
    (g.offer cx object place member v).Finishes cx N k := by
  unfold Engine.offer
  split
  · exact .pure _
  have go : ∀ target : Value, (do
      Run.log (cx.host.hooks.assign target member v).events
      return (cx.host.hooks.assign target member v).claimed : Run Bool).Finishes cx N k :=
    fun target => .bind (.log _) fun _ => .pure _
  rcases place with _ | ⟨root, path⟩
  · exact .bind (H.receiver object h hsize) fun target => go target
  · refine .bind (H.receiver (.var root) rfl (hplace root path rfl)) fun base => ?_
    exact .look fun m _ => go _

omit H in
/-- The variable and the indices on the way to a member are parts of the expression. -/
theorem sizeOf_assignTarget? {object : Expr} {x : Ident} {path : List TargetStep}
    (htarget : assignTarget? object = some (x, path)) :
    sizeOf (Expr.var x) ≤ sizeOf object ∧ ∀ i, .index i ∈ path → sizeOf i < sizeOf object := by
  fun_induction assignTarget? object generalizing x path with
  | case1 name =>
    cases htarget
    exact ⟨Nat.le_refl _, fun i hi => (List.not_mem_nil hi).elim⟩
  | case2 object name ih =>
    obtain ⟨⟨y, inner⟩, hinner, eq⟩ := Option.map_eq_some_iff.mp htarget
    cases eq
    obtain ⟨hvar, hpath⟩ := ih hinner
    rw [Expr.member.sizeOf_spec]
    refine ⟨by omega, fun i hi => ?_⟩
    rcases List.mem_append.mp hi with hi | hi
    · have := hpath i hi
      omega
    · cases List.mem_singleton.mp hi
  | case3 target is ih =>
    obtain ⟨⟨y, inner⟩, hinner, eq⟩ := Option.map_eq_some_iff.mp htarget
    cases eq
    obtain ⟨hvar, hpath⟩ := ih hinner
    rw [Expr.index.sizeOf_spec]
    refine ⟨by omega, fun i hi => ?_⟩
    rcases List.mem_append.mp hi with hi | hi
    · have := hpath i hi
      omega
    · obtain ⟨e, he, eq⟩ := List.mem_map.mp hi
      cases eq
      have := List.sizeOf_lt_of_mem he
      omega
  | case4 => cases htarget

/-- Writing ends if asking the hooks does. -/
theorem write (object : Expr) (member : Ident) (what : Value × Option (Ident × List Value.Step))
    (h : loopFree.expr object) (hsize : sizeOf object < n)
    (hplace : ∀ root path, what.2 = some (root, path) → sizeOf (Expr.var root) < n) :
    (g.write cx object member what).Finishes cx N k := by
  obtain ⟨v, place⟩ := what
  refine .bind (H.offer object place member.name v h hsize hplace) fun claimed => ?_
  split
  · exact .pure _
  rcases place with _ | ⟨root, path⟩
  · exact .pure _
  · exact unlessConst root.name (.bind (.withChain _) fun _ => .writeChain _)

/-- An assignment to a member finishes: what comes before the write, and the write. -/
theorem assignMember (object : Expr) (member : Ident) (value : Expr) (h : loopFree.expr object)
    (hvalue : loopFree.expr value) (hsize : sizeOf object < n) (hsize' : sizeOf value < n) :
    (g.assignMember cx object member value).Finishes cx N k := by
  -- The place is one below a variable of the object, which bounds what hooks are asked about.
  unfold Engine.assignMember Engine.beforeWrite
  rw [bind_assoc]
  refine .bind (H.eval value hvalue hsize') fun v => ?_
  cases htarget : assignTarget? object with
  | none => exact H.write object member (v, none) h hsize nofun
  | some target =>
    obtain ⟨root, path⟩ := target
    obtain ⟨hroot, hpath⟩ := sizeOf_assignTarget? htarget
    have hindices := Rule.expr_of_assignTarget? htarget h
    have followed := H.steps path fun i hi => ⟨hindices i hi, Nat.lt_trans (hpath i hi) hsize⟩
    dsimp only
    rw [bind_assoc, bind_assoc]
    refine .bind followed fun vs => ?_
    refine H.write object member (v, some (root, vs)) h hsize ?_
    intro root' path' eq
    cases eq
    omega

omit H in
theorem defineAll (names : List (Ident × Value)) : (defineAll names).Finishes cx N k := by
  induction names with
  | nil => exact .pure _
  | cons a rest ih => exact .bind (.define a.1.name a.2) fun _ => ih

omit H in
/-- Taking a value apart finishes. -/
theorem destructure (names : List Ident) (v : Value) : (destructure names v).Finishes cx N k := by
  cases v with
  | array items => exact defineAll _
  | map fields => exact defineAll _
  | _ => exact .fail _

omit H in
/-- The check of the sizes needs no machine. -/
theorem checkSizes (what : String) (sizes : List Nat) :
    (checkSizes cx what sizes).Finishes cx N k := by
  unfold BasicScript.checkSizes
  dsimp only
  split
  · exact .fail _
  · exact .pure _

theorem dim (x : Ident) (es : List Expr) (h : loopFree.exprs es) (hsize : sizeOf es < n) :
    (g.dim cx x es).Finishes cx N k := by
  refine .bind (H.sizes es h hsize) fun sizes => ?_
  exact .bind (checkSizes _ sizes) fun _ => .define x.name _

theorem redim (x : Ident) (es : List Expr) (preserve : Bool) (h : loopFree.exprs es)
    (hsize : sizeOf es < n) : (g.redim cx x es preserve).Finishes cx N k := by
  refine unlessConst x.name (.bind (H.sizes es h hsize) fun sizes => ?_)
  refine .noted _ _ (.bind (checkSizes _ sizes) fun _ => ?_)
  exact .bind (.withChain _) fun _ => .writeChain _

omit H in
/-- A TYPE finishes, for it is loaded or has been. -/
theorem declareType {p : Place} (d : TypeDecl) (h : loopFree.stmt p (.typeBlock d))
    (hbound : sizeOf (Stmt.typeBlock d) ≤ N) : (declareType d).Finishes cx N k := by
  refine .modify fun m hm => ?_
  split
  · exact hm
  · refine ⟨hm.loads.loadStmt (Stmt.declares_modest h hbound), ?_⟩
    rw [(Invariant.loadType_same m d).2]
    exact hm.depth

/-- **One level of execution.** -/
theorem execStep (p : Place) (s : Stmt) (h : loopFree.stmt p s) (hsize : sizeOf s ≤ n)
    (hbound : sizeOf s ≤ N) : (execStep cx g s).Finishes cx N k := by
  obtain ⟨hshape, hparts⟩ := Bool.and_eq_true_iff.mp h
  cases s with
  | optionExplicit => exact .normally (.modifyChain _)
  | locals bs =>
    rw [Stmt.locals.sizeOf_spec] at hsize
    exact .normally (H.locals bs hparts (by omega))
  | globals names => exact .normally (.modifyChain _)
  | define x e =>
    rw [Stmt.define.sizeOf_spec] at hsize
    exact .normally (.bind (H.eval e hparts (by omega)) fun v => .define x.name v)
  | assign x e =>
    rw [Stmt.assign.sizeOf_spec] at hsize
    exact .normally (.bind (H.eval e hparts (by omega)) fun v => .writeChain _)
  | constant x e =>
    rw [Stmt.constant.sizeOf_spec] at hsize
    exact .normally (.bind (H.eval e hparts (by omega)) fun v => .writeChain _)
  | assignIndex x is e =>
    rw [Rule.parts, Bool.and_eq_true] at hparts
    rw [Stmt.assignIndex.sizeOf_spec] at hsize
    exact .normally (H.assignIndex x is e hparts.1 hparts.2 (by omega) (by omega))
  | assignMember object member e =>
    rw [Rule.parts, Bool.and_eq_true] at hparts
    rw [Stmt.assignMember.sizeOf_spec] at hsize
    exact .normally (H.assignMember object member e hparts.1 hparts.2 (by omega) (by omega))
  | destructure names e =>
    rw [Stmt.destructure.sizeOf_spec] at hsize
    exact .normally (.bind (H.eval e hparts (by omega)) fun v => destructure names v)
  | print e =>
    rw [Stmt.print.sizeOf_spec] at hsize
    exact .bind (H.eval e hparts (by omega)) fun v => .bind (.reply _) fun _ => .pure _
  | expr e =>
    rw [Stmt.expr.sizeOf_spec] at hsize
    exact .bind (H.eval e hparts (by omega)) fun _ => .pure _
  | call name args named =>
    rw [Rule.parts, Bool.and_eq_true] at hparts
    rw [Stmt.call.sizeOf_spec] at hsize
    refine .bind (H.items args hparts.1 (by omega)) fun vs => ?_
    refine .bind (H.named named hparts.2 (by omega)) fun ns => ?_
    exact .bind (H.dispatch name.name vs ns) fun _ => .pure _
  | branch bs otherwise =>
    rw [Rule.parts, Bool.and_eq_true] at hparts
    rw [Stmt.branch.sizeOf_spec] at hsize
    exact H.branches p otherwise bs hparts.1 hparts.2 (by omega) (by omega)
  | whileLoop | forLoop | doLoop | repeatLoop => exact absurd hshape Bool.false_ne_true
  | forEach x e body =>
    rw [Rule.parts, Bool.and_eq_true] at hparts
    rw [Stmt.forEach.sizeOf_spec] at hsize
    refine .bind (H.eval e hparts.1 (by omega)) fun v => ?_
    exact H.eachItem (p.inside .forLoop) x body (elementsOf v) hparts.2 (by omega)
  | select e bs =>
    rw [Rule.parts, Bool.and_eq_true] at hparts
    rw [Stmt.select.sizeOf_spec] at hsize
    refine .bind (H.eval e hparts.1 (by omega)) fun v => ?_
    exact H.cases p v bs bs hparts.2 hparts.2 (by omega) (by omega)
  | returnWith e =>
    rw [Stmt.returnWith.sizeOf_spec] at hsize
    exact .bind (H.eval? e hparts (by omega)) fun v => .pure _
  | breakLoop | continueLoop | exit | procedure => exact .pure _
  | dim x es =>
    rw [Stmt.dim.sizeOf_spec] at hsize
    exact .normally (H.dim x es hparts (by omega))
  | redim x es preserve =>
    rw [Stmt.redim.sizeOf_spec] at hsize
    exact .normally (H.redim x es preserve hparts (by omega))
  | typeBlock d => exact .normally (declareType d h hbound)
  | enum name members =>
    rw [Stmt.enum.sizeOf_spec] at hsize
    exact .normally (H.enumerate name 0 members hparts (by omega))
  | attempt body handler cleanup =>
    simp only [Rule.parts, Bool.and_eq_true] at hparts
    rw [Stmt.attempt.sizeOf_spec] at hsize
    exact H.attempt p body handler cleanup hparts.1.1 hparts.1.2 hparts.2 (by omega) (by omega)
      (by omega)
  | raise e =>
    rw [Stmt.raise.sizeOf_spec] at hsize
    exact .bind (H.eval e hparts (by omega)) fun v => .fail _
  | assertion cond message =>
    rw [Rule.parts, Bool.and_eq_true] at hparts
    rw [Stmt.assertion.sizeOf_spec] at hsize
    refine .bind (H.eval cond hparts.1 (by omega)) fun v => ?_
    split
    · exact .pure _
    · cases message with
      | none => exact .fail _
      | some e =>
        rw [Option.some.sizeOf_spec] at hsize
        exact .bind (H.eval e hparts.2 (by omega)) fun v => .fail _
  | «using» x e body =>
    rw [Rule.parts, Bool.and_eq_true] at hparts
    rw [Stmt.using.sizeOf_spec] at hsize
    refine .bind (H.eval e hparts.1 (by omega)) fun v => ?_
    exact .within _ (H.block p body hparts.2 (by omega))
  | debugPrint e =>
    rw [Stmt.debugPrint.sizeOf_spec] at hsize
    unfold BasicScript.execStep
    dsimp only
    split
    · exact .bind (H.eval e hparts (by omega)) fun v => .bind (.log _) fun _ => .pure _
    · exact .pure _
  | breakpoint =>
    unfold BasicScript.execStep
    dsimp only
    split
    · exact .bind (.withChain _) fun _ => .bind (.log _) fun _ => .pure _
    · exact .pure _

end Serves

end Engine

end BasicScript
