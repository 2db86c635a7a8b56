import BasicScript.Proofs.Termination.Basic

/-!
# Expressions that finish

One level of evaluation: an engine that finishes with small code finishes with what is evaluated by
its means, if that is not too large.  A call by name, through a variable, of a member or by SUPER
comes to the frame of a procedure or lambda without evaluating anything else, and in the frame there
is one call less left.
-/

namespace BasicScript

open Rule (loopFree)

variable {α : Type} {cx : Context} {N k n : Nat}

/-! ## Engines -/

namespace Engine

/-- An engine finishes with all code without loops that is smaller than `n`, where `k` calls are
left. -/
structure Handles (cx : Context) (N : Nat) (g : Engine) (k n : Nat) : Prop where
  eval : ∀ e, loopFree.expr e → sizeOf e < n → (g.eval e).Finishes cx N k
  exec : ∀ p s, loopFree.stmt p s → sizeOf s < n → (g.exec s).Finishes cx N k

/-- An engine finishes with code smaller than `n`, and with all code where fewer calls are left. -/
structure Serves (cx : Context) (N : Nat) (g : Engine) (k n : Nat) : Prop
    extends Handles cx N g k n where
  called : ∀ j < k, g.Handles cx N j N

variable {g : Engine}

namespace Handles

variable (H : g.Handles cx N k n)
include H

/-! ### Lists of statements and expressions -/

/-- A block finishes, by induction on its statements. -/
theorem block (p : Place) (body : List Stmt) (h : loopFree.stmts p body)
    (hsize : sizeOf body < n) : (g.block body).Finishes cx N k := by
  induction body with
  | nil => exact .pure _
  | cons s rest ih =>
    rw [Rule.stmts, Bool.and_eq_true] at h
    rw [List.cons.sizeOf_spec] at hsize
    refine .bind (H.exec p s h.1 (by omega)) fun f => ?_
    cases f with
    | normal => exact ih h.2 (by omega)
    | _ => exact .pure _

/-- The items of an array or a call finish, by induction on them. -/
theorem items (es : List Expr) (h : loopFree.exprs es) (hsize : sizeOf es < n) :
    (g.items es).Finishes cx N k := by
  induction es with
  | nil => exact .pure _
  | cons e rest ih =>
    rw [Rule.exprs, Bool.and_eq_true] at h
    rw [List.cons.sizeOf_spec] at hsize
    have hrest := ih h.2 (by omega)
    cases e with
    | spread inner =>
      rw [Expr.spread.sizeOf_spec] at hsize
      refine .bind (H.eval inner h.1 (by omega)) fun v => ?_
      cases v <;> exact .bind hrest fun _ => .pure _
    | _ => exact .bind (H.eval _ h.1 (by omega)) fun v => .bind hrest fun _ => .pure _

/-- Expressions that are evaluated for themselves finish, by induction on them. -/
theorem values (es : List Expr) (h : loopFree.exprs es) (hsize : sizeOf es < n) :
    (g.values es).Finishes cx N k := by
  induction es with
  | nil => exact .pure _
  | cons e rest ih =>
    rw [Rule.exprs, Bool.and_eq_true] at h
    rw [List.cons.sizeOf_spec] at hsize
    refine .bind (H.eval e h.1 (by omega)) fun v => ?_
    exact .bind (ih h.2 (by omega)) fun _ => .pure _

theorem named (es : List (Ident × Expr)) (h : loopFree.namedArgs es) (hsize : sizeOf es < n) :
    (g.named es).Finishes cx N k := by
  induction es with
  | nil => exact .pure _
  | cons a rest ih =>
    obtain ⟨name, e⟩ := a
    rw [Rule.namedArgs, Bool.and_eq_true] at h
    rw [List.cons.sizeOf_spec, Prod.mk.sizeOf_spec] at hsize
    refine .bind (H.eval e h.1 (by omega)) fun v => ?_
    exact .bind (ih h.2 (by omega)) fun _ => .pure _

theorem eval? (e : Option Expr) (h : loopFree.expr? e) (hsize : sizeOf e < n) :
    (g.eval? e).Finishes cx N k := by
  cases e with
  | none => exact .pure _
  | some e =>
    rw [Option.some.sizeOf_spec] at hsize
    exact H.eval e h (by omega)

/-- The defaults of parameters finish, by induction on them. -/
theorem bindDefaults (placed : List (Binder × Option Value))
    (h : ∀ b ∈ placed, loopFree.expr? b.1.init ∧ sizeOf b.1.init < n) :
    (g.bindDefaults placed).Finishes cx N k := by
  induction placed with
  | nil => exact .pure _
  | cons head rest ih =>
    have hrest := ih fun b hb => h b (List.mem_cons_of_mem head hb)
    have hhead := h head List.mem_cons_self
    obtain ⟨p, _ | v⟩ := head
    · refine .bind (H.eval? p.init hhead.1 hhead.2) fun v => ?_
      exact .bind (.modifyChain _) fun _ => hrest
    · exact hrest

/-- The parameters of a call are bound. -/
theorem bindParams (params : List Binder) (args : List Value) (named : List NamedValue)
    (h : loopFree.binders params) (hsize : ∀ p ∈ params, sizeOf p.init < n) :
    (g.bindParams params args named).Finishes cx N k := by
  refine .bind (.modifyChain _) fun _ => H.bindDefaults _ fun b hb => ?_
  have hmem := (List.of_mem_zip hb).1
  exact ⟨Rule.expr?_of_mem_binders h b.1 hmem, hsize b.1 hmem⟩

/-- The object in `object.member`. -/
theorem receiver (object : Expr) (h : loopFree.expr object) (hsize : sizeOf object < n) :
    (g.receiver cx object).Finishes cx N k := by
  have evaluated := H.eval object h hsize
  cases object with
  | var name =>
    refine .look fun m _ => ?_
    split
    · split
      · exact .pure _
      · exact evaluated
    · exact evaluated
  | _ => exact evaluated

/-! ### Parts of expressions -/

/-- Indices that are applied one after the other finish, by induction on them. -/
theorem indices (target : Value) (es : List Expr) (h : loopFree.exprs es) (hsize : sizeOf es < n) :
    (g.indices target es).Finishes cx N k := by
  induction es generalizing target with
  | nil => exact .pure _
  | cons e rest ih =>
    rw [Rule.exprs, Bool.and_eq_true] at h
    rw [List.cons.sizeOf_spec] at hsize
    exact .bind (H.eval e h.1 (by omega)) fun i => ih _ h.2 (by omega)

/-- The entries of a map literal finish, by induction on them. -/
theorem entries (fields : Table Value) (es : List (Expr × Expr)) (h : loopFree.pairs es)
    (hsize : sizeOf es < n) : (g.entries fields es).Finishes cx N k := by
  induction es generalizing fields with
  | nil => exact .pure _
  | cons entry rest ih =>
    obtain ⟨key, e⟩ := entry
    simp only [Rule.pairs, Bool.and_eq_true] at h
    rw [List.cons.sizeOf_spec, Prod.mk.sizeOf_spec] at hsize
    refine .bind (H.eval key h.1.1 (by omega)) fun _ => ?_
    exact .bind (H.eval e h.1.2 (by omega)) fun _ => ih _ h.2 (by omega)

/-- The parts of an interpolated text finish, by induction on them. -/
theorem parts (done : String) (es : List Expr) (h : loopFree.exprs es) (hsize : sizeOf es < n) :
    (g.parts done es).Finishes cx N k := by
  induction es generalizing done with
  | nil => exact .pure _
  | cons e rest ih =>
    rw [Rule.exprs, Bool.and_eq_true] at h
    rw [List.cons.sizeOf_spec] at hsize
    exact .bind (H.eval e h.1 (by omega)) fun v => ih _ h.2 (by omega)

/-- A comprehension goes through the items that were there when it started. -/
theorem comprehend (item : Expr) (x : Ident) (filter : Option Expr) (vs : List Value)
    (hitem : loopFree.expr item) (hfilter : loopFree.expr? filter) (hsize : sizeOf item < n)
    (hsize' : sizeOf filter < n) : (g.comprehend item x filter vs).Finishes cx N k := by
  induction vs with
  | nil => exact .pure _
  | cons v rest ih =>
    have chosen : ∀ wanted : Bool, (if wanted then do
        let r ← g.eval item
        return r :: (← g.comprehend item x filter rest)
      else g.comprehend item x filter rest : Run (List Value)).Finishes cx N k := by
      intro wanted
      split
      · exact .bind (H.eval item hitem hsize) fun r => .bind ih fun _ => .pure _
      · exact ih
    refine .bind (.modifyChain _) fun _ => ?_
    cases filter with
    | none => exact chosen true
    | some cond =>
      rw [Option.some.sizeOf_spec] at hsize'
      have test := H.eval cond hfilter (by omega)
      exact .bind (.bind test fun c => .pure c.isTruthy) fun wanted => chosen wanted

/-- The arms of a choice finish, by induction on them. -/
theorem arms (subject : Value) (otherwise : Option Expr) (es : List (Expr × Expr))
    (h : loopFree.pairs es) (hotherwise : loopFree.expr? otherwise) (hsize : sizeOf es < n)
    (hsize' : sizeOf otherwise < n) : (g.arms subject otherwise es).Finishes cx N k := by
  induction es with
  | nil => exact H.eval? otherwise hotherwise hsize'
  | cons arm rest ih =>
    obtain ⟨pattern, result⟩ := arm
    simp only [Rule.pairs, Bool.and_eq_true] at h
    rw [List.cons.sizeOf_spec, Prod.mk.sizeOf_spec] at hsize
    refine .bind (H.eval pattern h.1.1 (by omega)) fun p => ?_
    split
    · exact H.eval result h.1.2 (by omega)
    · exact ih h.2 (by omega)

omit H in
/-- A modest routine in a frame that is open. -/
theorem enter (H : g.Handles cx N k N) {b : Body} {r : Routine} (h : r.Modest N b)
    (args : List Value) (named : List NamedValue) : (g.enter r args named).Finishes cx N k := by
  obtain ⟨params, body⟩ := r
  have hparts := h.loopFree
  rw [Rule.routine, Bool.and_eq_true] at hparts
  refine .bind (H.bindParams params args named hparts.1 h.defaults) fun _ => ?_
  exact H.block ⟨b, []⟩ body hparts.2 h.body

end Handles

namespace Serves

variable (H : g.Serves cx N k n)
include H

/-! ### Calls

A call of a procedure or lambda is made where fewer calls are left; everything that leads to it
without a frame of its own goes through the same few functions once. -/

/-- A modest routine finishes in a frame of its own.  There the code may be as large as any, but one
call less is left. -/
theorem callRoutine {b : Body} {r : Routine} (h : r.Modest N b) (args : List Value)
    (named : List NamedValue) : (g.callRoutine cx r args named).Finishes cx N k :=
  .inFrame fun j hj => (H.called j hj).enter h args named

/-- A FUNCTION whose routine is modest finishes. -/
theorem callFunction {f : FunctionDecl} (h : f.routine.Modest N .function) (args : List Value)
    (named : List NamedValue) : (g.callFunction cx f args named).Finishes cx N k := by
  refine .bind (H.callRoutine h args named) fun flow => .bind (.result flow) fun v => ?_
  split
  · split
    · exact .bind (.log _) fun _ => .pure _
    · exact .pure _
  · exact .pure _

/-- Calling a procedure of a tame machine, or else something that finishes. -/
theorem callProcedure? {m : Machine} (hm : m.Tame cx N k) (name : String) (args : List Value)
    (named : List NamedValue) {otherwise : Run Value} (h : otherwise.Finishes cx N k) :
    (match g.callProcedure? cx m name args named with
      | some call => call
      | none => otherwise).Finishes cx N k := by
  unfold Engine.callProcedure?
  cases hsub : Table.get? m.subs name with
  | some r =>
    exact .bind (H.callRoutine (hm.loads.subs name r hsub) args named) fun flow => .endSub flow
  | none =>
    cases hfun : Table.get? m.functions name with
    | some f => exact H.callFunction (hm.loads.functions name f hfun) args named
    | none => exact h

/-- The call of a name finishes, for what is loaded is modest. -/
theorem callName (name : String) (args : List Value) (named : List NamedValue) :
    (g.callName cx name args named).Finishes cx N k := by
  refine .look fun m hm => H.callProcedure? hm name args named ?_
  split
  · exact .pure _
  · exact .reply _

/-- The call of a lambda finishes, for what is known of lambdas is modest. -/
theorem callLambda (fields : Table Value) (args : List Value) :
    (g.callLambda cx fields args).Finishes cx N k := by
  refine .look fun m hm => ?_
  cases hr : m.lambda? fields with
  | none => exact .fail _
  | some r =>
    have entered : ∀ j < k, (g.enter r args []).Finishes cx N j :=
      fun j hj => (H.called j hj).enter (hm.loads.lambda? hr) args []
    exact .bind (.inLambda (closureOf fields) entered) fun flow => .result flow

theorem callMethod (fields : Table Value) (args : List Value) :
    (g.callMethod cx fields args).Finishes cx N k := by
  unfold Engine.callMethod
  split
  · exact .pure _
  · exact H.callName _ _ _

theorem invoke (callee : Value) (args : List Value) :
    (g.invoke cx callee args).Finishes cx N k := by
  unfold Engine.invoke
  cases callee with
  | map fields =>
    dsimp only
    split
    · exact H.callLambda fields args
    · split
      · exact H.callMethod fields args
      · exact .fail _
  | _ => exact .fail _

/-- The call of a name finishes, whatever the name stands for. -/
theorem dispatch (name : String) (args : List Value) (named : List NamedValue) :
    (g.dispatch cx name args named).Finishes cx N k := by
  refine .look fun m hm => H.callProcedure? hm name args named ?_
  split
  · exact .pure _
  · split
    · exact H.invoke _ args
    · exact .reply _

/-- SUPER finishes, with a parent or without one. -/
theorem callSuper (method : Ident) (args : List Expr) (h : loopFree.exprs args)
    (hsize : sizeOf args < n) : (g.callSuper cx method args).Finishes cx N k := by
  refine .look fun m _ => ?_
  split
  · exact .pure _
  · split
    · exact .pure _
    · refine .bind (H.items args h hsize) fun vs => ?_
      split
      · exact .reply _
      · exact .look fun m hm => H.callProcedure? hm _ _ _ (.fail _)

/-- The call of a member finishes, whatever the member stands for. -/
theorem callMember (object : Expr) (method : Ident) (args : List Expr) (h : loopFree.expr object)
    (hargs : loopFree.exprs args) (hsize : sizeOf object < n) (hsize' : sizeOf args < n) :
    (g.callMember cx object method args).Finishes cx N k := by
  refine .bind (H.receiver object h hsize) fun this => ?_
  refine .bind (H.items args hargs hsize') fun vs => ?_
  split
  · exact H.invoke this vs
  · refine .look fun m _ => ?_
    dsimp only
    split
    · exact .bind (H.invoke _ vs) fun _ => .pure _
    · split
      · exact .pure _
      · exact .bind (H.dispatch _ vs []) fun _ => .pure _

/-- **One level of evaluation.**  A lambda that is learned is a part of the expression. -/
theorem evalStep (e : Expr) (h : loopFree.expr e) (hsize : sizeOf e ≤ n) (hbound : sizeOf e ≤ N) :
    (evalStep cx g e).Finishes cx N k := by
  cases e with
  | nil | bool | int | float | str => exact .pure _
  | var name => exact .readVar name.name
  | unary op e =>
    rw [Expr.unary.sizeOf_spec] at hsize
    exact .bind (H.eval e h (by omega)) fun _ => .lift _
  | binary op a b =>
    rw [Rule.expr, Bool.and_eq_true] at h
    rw [Expr.binary.sizeOf_spec] at hsize
    refine .bind (H.eval a h.1 (by omega)) fun _ => ?_
    exact .bind (H.eval b h.2 (by omega)) fun _ => .lift _
  | index e es =>
    rw [Rule.expr, Bool.and_eq_true] at h
    rw [Expr.index.sizeOf_spec] at hsize
    refine .bind (H.eval e h.1 (by omega)) fun v => ?_
    exact H.indices v es h.2 (by omega)
  | call callee args named =>
    rw [Rule.expr, Bool.and_eq_true] at h
    rw [Expr.call.sizeOf_spec] at hsize
    refine .bind (H.items args h.1 (by omega)) fun vs => ?_
    refine .bind (H.named named h.2 (by omega)) fun ns => ?_
    exact H.dispatch callee.name vs ns
  | member object name =>
    rw [Expr.member.sizeOf_spec] at hsize
    exact .bind (H.receiver object h (by omega)) fun v => .member v name.name
  | methodCall object method args =>
    rw [Rule.expr, Bool.and_eq_true] at h
    rw [Expr.methodCall.sizeOf_spec] at hsize
    exact H.callMember object method args h.1 h.2 (by omega) (by omega)
  | array es =>
    rw [Expr.array.sizeOf_spec] at hsize
    exact .bind (H.items es h (by omega)) fun _ => .pure _
  | tuple es =>
    rw [Expr.tuple.sizeOf_spec] at hsize
    exact .bind (H.items es h (by omega)) fun _ => .pure _
  | map es =>
    rw [Expr.map.sizeOf_spec] at hsize
    exact .bind (H.entries [] es h (by omega)) fun _ => .pure _
  | lambda label r =>
    rw [Expr.lambda.sizeOf_spec] at hbound
    have modest : r.Modest N .function := .of_sizeOf h (by omega)
    have learned : (modify (·.learn label r) : Run Unit).Finishes cx N k :=
      .modify fun m hm => ⟨hm.loads.learn label modest, by
        rw [m.depth_learn label r]
        exact hm.depth⟩
    exact .bind learned fun _ => .bind (.withChain _) fun _ => .pure _
  | interpolated es =>
    rw [Expr.interpolated.sizeOf_spec] at hsize
    exact .bind (H.parts "" es h (by omega)) fun _ => .pure _
  | range a b =>
    rw [Rule.expr, Bool.and_eq_true] at h
    rw [Expr.range.sizeOf_spec] at hsize
    refine .bind (H.eval a h.1 (by omega)) fun _ => ?_
    exact .bind (H.eval b h.2 (by omega)) fun _ => .lift _
  | comprehension item x source filter =>
    simp only [Rule.expr, Bool.and_eq_true] at h
    rw [Expr.comprehension.sizeOf_spec] at hsize
    refine .bind (H.eval source h.1.2 (by omega)) fun v => ?_
    have inside := H.comprehend item x filter (Value.itemsOf v) h.1.1 h.2 (by omega) (by omega)
    exact .bind (.within _ inside) fun _ => .pure _
  | choose subject arms otherwise =>
    simp only [Rule.expr, Bool.and_eq_true] at h
    rw [Expr.choose.sizeOf_spec] at hsize
    refine .bind (H.eval subject h.1.1 (by omega)) fun v => ?_
    exact H.arms v otherwise arms h.1.2 h.2 (by omega) (by omega)
  | safeMember object name =>
    rw [Expr.safeMember.sizeOf_spec] at hsize
    refine .bind (H.eval object h (by omega)) fun v => ?_
    split
    · exact .pure _
    · exact .look fun _ _ => .pure _
  | safeIndex object i =>
    rw [Rule.expr, Bool.and_eq_true] at h
    rw [Expr.safeIndex.sizeOf_spec] at hsize
    refine .bind (H.eval object h.1 (by omega)) fun v => ?_
    split
    · exact .pure _
    · exact .bind (H.eval i h.2 (by omega)) fun _ => .pure _
  | coalesce a b =>
    rw [Rule.expr, Bool.and_eq_true] at h
    rw [Expr.coalesce.sizeOf_spec] at hsize
    refine .bind (H.eval a h.1 (by omega)) fun v => ?_
    split
    · exact H.eval b h.2 (by omega)
    · exact .pure _
  | spread e =>
    rw [Expr.spread.sizeOf_spec] at hsize
    exact H.eval e h (by omega)
  | typeOf e =>
    rw [Expr.typeOf.sizeOf_spec] at hsize
    exact .bind (H.eval e h (by omega)) fun _ => .pure _
  | properties e =>
    rw [Expr.properties.sizeOf_spec] at hsize
    exact .bind (H.eval e h (by omega)) fun _ => .pure _
  | methods e =>
    rw [Expr.methods.sizeOf_spec] at hsize
    refine .bind (H.eval e h (by omega)) fun v => ?_
    split
    · exact .look fun _ _ => .pure _
    · exact .pure _
  | superCall method args =>
    rw [Expr.superCall.sizeOf_spec] at hsize
    exact H.callSuper method args h (by omega)

end Serves

end Engine

end BasicScript
