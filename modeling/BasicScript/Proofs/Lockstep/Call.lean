import BasicScript.Proofs.Lockstep.Basic

/-!
# Calls in lockstep

Two engines that evaluate and execute in lockstep also bind parameters, call procedures, lambdas and
methods, and find members in lockstep.
-/

namespace BasicScript

/-! ## What machines that are alike find -/

namespace Machine.Alike

variable {m m' : Machine} {cx cx' : Context} (h : m.Alike m') (hh : cx'.host = cx.host)
include h

/-- Both machines know the same lambdas. -/
theorem lambda? (fields : Table Value) : m'.lambda? fields = m.lambda? fields := by
  unfold Machine.lambda?
  rw [h.lambdas]

include hh

/-- Both machines find the same types. -/
theorem findType? : m'.findType? cx' = m.findType? cx := by
  funext name
  unfold Machine.findType?
  rw [h.types, hh]

/-- Both machines make the same new objects. -/
theorem instance? (name : String) : m'.instance? cx' name = m.instance? cx name := by
  unfold Machine.instance?
  rw [h.types, hh]

/-- Both machines list the same methods. -/
theorem methodsOf (name : String) : m'.methodsOf cx' name = m.methodsOf cx name := by
  unfold Machine.methodsOf
  rw [h.types, hh]

/-- Both machines find the same methods of a type. -/
theorem typeMethod? (object : Value) (type member : String) :
    m'.typeMethod? cx' object type member = m.typeMethod? cx object type member := by
  unfold Machine.typeMethod? Machine.knows
  rw [h.subs, h.functions, hh]

/-- A member stands for the same on both machines. -/
theorem member? (object : Value) (name : String) :
    m'.member? cx' object name = m.member? cx object name := by
  unfold Machine.member? Machine.mapMember? Machine.builtinMember? Machine.namespaceMethod?
  simp only [h.typeMethod? hh, hh]

/-- A member stands for the same, and for nothing on both sides where there is none. -/
theorem memberOf (object : Value) (name : String) :
    m'.memberOf cx' object name = m.memberOf cx object name := by
  unfold Machine.memberOf
  rw [h.member? hh]

/-- A path of members and indices leads to the same value. -/
theorem follow (v : Value) (path : List Value.Step) :
    m'.follow cx' v path = m.follow cx v path := by
  unfold Machine.follow
  simp only [h.memberOf hh]

end Machine.Alike

namespace Lockstep

/-- Two engines evaluate and execute in lockstep what obeys the rule.  The second one may have more
fuel if the first run may end early for want of it. -/
structure Engines (L : Lockstep) (g g' : Engine) : Prop where
  fuel : g'.fuel = g.fuel ∨ (L.early .exhausted ∧ g.fuel ≤ g'.fuel)
  eval : ∀ e, L.rule.expr e → L.Yields .expr (g.eval e) (g'.eval e)
  exec : ∀ p s, L.rule.stmt p s → L.Rel .stmt (g.exec s) (g'.exec s) (L.flow p)

variable {L : Lockstep} {cx cx' : Context} {g g' : Engine} {l : Level}
  (S : L.Sound cx cx') (G : L.Engines g g')

namespace Sound

include S

/-- What a native answers. -/
theorem reply (name : String) {args : List Value} (hargs : Value.AllKeyed L.key args) :
    L.Yields l (Run.reply (cx.host.natives.call name args))
      (Run.reply (cx'.host.natives.call name args)) := by
  rw [S.host]
  refine S.ofExpr (S.bind (S.log _) fun _ _ => ?_)
  cases h : (cx.host.natives.call name args).result with
  | ok v => exact S.pure (S.host_keyed.natives name args hargs v h)
  | error e => exact S.halt (S.halt_native name args e h)

/-- A note that is there in debug mode only, and what comes after it. -/
theorem noted {α : Type} {x x' : Run α} {Q : α → Prop} (text : String) (h : L.Rel l x x' Q) :
    L.Rel l (if cx.config.debug then do Run.note text; x else x)
      (if cx'.config.debug then do Run.note text; x' else x') Q := by
  have both := S.bind (S.ofExpr (S.note text)) fun _ _ => h
  by_cases hd : cx.config.debug <;> by_cases hd' : cx'.config.debug <;>
    simp only [hd, hd'] at both ⊢ <;> exact both

/-- The same for a note that may be missing. -/
theorem noted? {α : Type} {x x' : Run α} {Q : α → Prop} (text : Option String)
    (h : L.Rel l x x' Q) :
    L.Rel l
      (if cx.config.debug then match text with | some t => (do Run.note t; x) | none => x else x)
      (if cx'.config.debug then match text with | some t => (do Run.note t; x') | none => x'
        else x') Q := by
  cases text with
  | some t => exact S.noted t h
  | none => simpa only [ite_self] using h

/-- A SUB takes up the flows that its body may end with. -/
theorem endSub {f : Flow} (hf : L.flow ⟨.sub, []⟩ f) : L.Yields l f.endSub f.endSub := by
  rcases S.flow_sub f hf with (rfl | ⟨v, rfl⟩ | rfl) | halts
  · exact S.pure .nil
  · exact S.pure .nil
  · exact S.pure .nil
  · cases f with
    | exited t => cases t <;> first | exact S.pure .nil | exact S.halt halts
    | _ => first | exact S.pure .nil | exact S.halt halts

/-- A function or lambda takes up the flows that its body may end with. -/
theorem result {f : Flow} (hf : L.flow ⟨.function, []⟩ f) : L.Yields l f.result f.result := by
  rcases S.flow_function f hf with (rfl | ⟨v, rfl⟩ | rfl) | halts
  · exact S.pure .nil
  · exact S.pure (S.flow_keyed _ v hf)
  · exact S.pure .nil
  · cases f with
    | returned v => exact S.pure (S.flow_keyed _ v hf)
    | exited t => cases t <;> first | exact S.pure .nil | exact S.halt halts
    | _ => first | exact S.pure .nil | exact S.halt halts

end Sound

namespace Engines

include S G

/-! ## Lists of statements and expressions -/

/-- A block, by induction on its statements. -/
theorem block (p : Place) (body : List Stmt) (h : L.rule.stmts p body) :
    L.Rel .stmt (g.block body) (g'.block body) (L.flow p) := by
  induction body with
  | nil => exact S.pure (S.flow_normal p)
  | cons s rest ih =>
    rw [Rule.stmts, Bool.and_eq_true] at h
    refine S.bind (G.exec p s h.1) fun f hf => ?_
    cases f with
    | normal => exact ih h.2
    | _ => exact S.pure hf

/-- The items of an array or a call, by induction on them; a spread one may be an array. -/
theorem items (es : List Expr) (h : L.rule.exprs es) :
    L.Rel .expr (g.items es) (g'.items es) (Value.AllKeyed L.key) := by
  induction es with
  | nil => exact S.pure nofun
  | cons e rest ih =>
    rw [Rule.exprs, Bool.and_eq_true] at h
    have hrest := ih h.2
    cases e with
    | spread inner =>
      refine S.bind (G.eval inner h.1) fun v hv => ?_
      cases v with
      | array vs =>
        exact S.bind hrest fun ws hws => S.pure ((Value.keyed_array.mp hv).append hws)
      | _ => exact S.bind hrest fun ws hws => S.pure (.cons hv hws)
    | _ =>
      exact S.bind (G.eval _ h.1) fun v hv => S.bind hrest fun ws hws => S.pure (.cons hv hws)

theorem values (es : List Expr) (h : L.rule.exprs es) :
    L.Keeps .expr (g.values es) (g'.values es) := by
  induction es with
  | nil => exact S.skip _
  | cons e rest ih =>
    rw [Rule.exprs, Bool.and_eq_true] at h
    exact S.bind (G.eval e h.1) fun v _ => S.bind (ih h.2) fun _ _ => S.skip _

/-- Named arguments, by induction on them. -/
theorem named (es : List (Ident × Expr)) (h : L.rule.namedArgs es) :
    L.Rel .expr (g.named es) (g'.named es) fun ns => ∀ a ∈ ns, a.2.Keyed L.key := by
  induction es with
  | nil => exact S.pure nofun
  | cons e rest ih =>
    obtain ⟨name, e⟩ := e
    rw [Rule.namedArgs, Bool.and_eq_true] at h
    refine S.bind (G.eval e h.1) fun v hv => S.bind (ih h.2) fun ns hns => ?_
    exact S.pure (List.forall_mem_cons.mpr ⟨hv, hns⟩)

theorem eval? (e : Option Expr) (h : L.rule.expr? e) :
    L.Yields .expr (g.eval? e) (g'.eval? e) := by
  cases e with
  | none => exact S.pure .nil
  | some e => exact G.eval e h

/-! ## Parameters -/

omit G in
/-- Arguments are bound to the parameters that they are placed at. -/
theorem bindPlaced (placed : List (Binder × Option Value))
    (h : ∀ b ∈ placed, ∀ v, b.2 = some v → v.Keyed L.key) :
    L.Keeps .entry (Run.modifyChain (BasicScript.bindPlaced · placed))
      (Run.modifyChain (BasicScript.bindPlaced · placed)) := by
  induction placed with
  | nil => exact S.skip ()
  | cons head rest ih =>
    obtain ⟨hhead, hrest⟩ := List.forall_mem_cons.mp h
    obtain ⟨p, _ | v⟩ := head
    · exact ih hrest
    · have bound := S.bindEntry p.name.name v (S.key_name p.name) (hhead v rfl)
      exact S.bind bound fun _ _ => ih hrest

/-- Parameters without an argument get their defaults, one after the other. -/
theorem bindDefaults (placed : List (Binder × Option Value))
    (h : ∀ b ∈ placed, L.rule.expr? b.1.init) :
    L.Keeps .entry (g.bindDefaults placed) (g'.bindDefaults placed) := by
  induction placed with
  | nil => exact S.skip ()
  | cons head rest ih =>
    have hrest := ih fun b hb => h b (List.mem_cons_of_mem _ hb)
    obtain ⟨p, _ | v⟩ := head
    · refine S.bind (S.ofExpr (G.eval? S p.init (h _ List.mem_cons_self))) fun v hv => ?_
      exact S.bind (S.bindEntry p.name.name v (S.key_name p.name) hv) fun _ _ => hrest
    · exact hrest

section Arguments

variable {args : List Value} {named : List NamedValue} (hargs : Value.AllKeyed L.key args)
  (hnamed : ∀ a ∈ named, a.2.Keyed L.key)
include hargs hnamed

theorem bindParams (params : List Binder) (h : L.rule.binders params) :
    L.Keeps .entry (g.bindParams params args named) (g'.bindParams params args named) := by
  refine S.bind (bindPlaced S _ ?_) fun _ _ => G.bindDefaults S _ ?_
  · intro b hb v hv
    have hplaced := (List.of_mem_zip hb).2
    rw [hv] at hplaced
    exact keyed_of_mem_placeArgs hargs hnamed hplaced
  · intro b hb
    exact Rule.expr?_of_mem_binders h b.1 (List.of_mem_zip hb).1

/-! ## Procedures, lambdas and methods -/

/-- A routine whose parameters and body obey the rule, in a frame that is open. -/
theorem enter (b : Body) (r : Routine) (h : L.rule.routine b r) :
    L.Starts (g.enter r args named) (g'.enter r args named) (L.flow ⟨b, []⟩) := by
  obtain ⟨params, body⟩ := r
  rw [Rule.routine, Bool.and_eq_true] at h
  exact S.starts (G.bindParams S hargs hnamed params h.1) fun _ _ => G.block S ⟨b, []⟩ body h.2

/-- A routine is called in a frame of its own, within the limit of nested calls. -/
theorem callRoutine (b : Body) (r : Routine) (h : L.rule.routine b r) :
    L.Rel .expr (g.callRoutine cx r args named) (g'.callRoutine cx' r args named)
      (L.flow ⟨b, []⟩) :=
  S.inFrame (G.enter S hargs hnamed b r h)

/-- A FUNCTION is called, and its result may be noted. -/
theorem callFunction (f : FunctionDecl) (h : L.rule.routine .function f.routine) :
    L.Yields .expr (g.callFunction cx f args named) (g'.callFunction cx' f args named) := by
  refine S.bind (G.callRoutine S hargs hnamed .function f.routine h) fun flow hf => ?_
  refine S.bind (S.result hf) fun v hv => ?_
  exact S.noted? (resultNote? f v) (S.pure hv)

/-- Both machines have a procedure of a name, or none of them has. -/
theorem callProcedure? {m m' : Machine} (hm : L.near l m m') (name : String)
    {otherwise otherwise' : Run Value} (h : L.Yields .expr otherwise otherwise') :
    L.Yields .expr
      (match g.callProcedure? cx m name args named with | some call => call | none => otherwise)
      (match g'.callProcedure? cx' m' name args named with
        | some call => call
        | none => otherwise') := by
  unfold Engine.callProcedure?
  rw [(S.alike hm).subs, (S.alike hm).functions]
  cases hsub : Table.get? m.subs name with
  | some r =>
    have hr := (S.obeys hm).subs name r hsub
    exact S.bind (G.callRoutine S hargs hnamed .sub r hr) fun flow hf => S.endSub hf
  | none =>
    cases hfun : Table.get? m.functions name with
    | some f =>
      exact G.callFunction S hargs hnamed f ((S.obeys hm).functions name f hfun)
    | none => exact h

/-- A name is called that stands for a procedure, a type or a native. -/
theorem callName (name : String) :
    L.Yields .expr (g.callName cx name args named) (g'.callName cx' name args named) := by
  refine Rel.look fun m m' hm => G.callProcedure? S hargs hnamed hm name ?_
  rw [(S.alike hm).instance? S.host]
  cases hobject : m.instance? cx name with
  | some object =>
    have keyed := (S.keyed hm).instance? S.key_normal S.host_keyed hobject
    exact S.pure (keyed_construct S.key_normal keyed hnamed)
  | none => exact S.reply name hargs

end Arguments

section Callees

variable {args : List Value} (hargs : Value.AllKeyed L.key args)
include hargs

/-- A lambda is called in a frame with what it has seen. -/
theorem callLambda {fields : Table Value} (hfields : Table.Keyed L.key fields) :
    L.Yields .expr (g.callLambda cx fields args) (g'.callLambda cx' fields args) := by
  refine Rel.look fun m m' hm => ?_
  rw [(S.alike hm).lambda?]
  cases hr : m.lambda? fields with
  | none => exact S.fail nofun
  | some r =>
    have starts := G.enter S hargs (List.forall_mem_nil _) .function r ((S.obeys hm).lambda? hr)
    exact S.bind (S.inLambda (keyed_closureOf hfields) starts) fun flow hf => S.result hf

/-- A method object calls its function with its object in front of the arguments. -/
theorem callMethod {fields : Table Value} (hfields : Table.Keyed L.key fields) :
    L.Yields .expr (g.callMethod cx fields args) (g'.callMethod cx' fields args) := by
  unfold Engine.callMethod
  cases Value.textField? fields Value.functionKey with
  | none => exact S.pure .nil
  | some function =>
    refine G.callName S (Value.AllKeyed.append ?_ hargs) (List.forall_mem_nil _) _
    intro object hobject
    exact hfields.get? (Option.mem_toList.mp hobject)

/-- A value is called that is a lambda or a method object. -/
theorem invoke {callee : Value} (hcallee : callee.Keyed L.key) :
    L.Yields .expr (g.invoke cx callee args) (g'.invoke cx' callee args) := by
  unfold Engine.invoke
  cases callee with
  | map fields =>
    have hfields := Value.keyed_map.mp hcallee
    dsimp only
    split
    · exact G.callLambda S hargs hfields
    · split
      · exact G.callMethod S hargs hfields
      · exact S.fail nofun
  | _ => exact S.fail nofun

/-- A name is called, whatever it stands for: a procedure, a type, a variable or a native. -/
theorem dispatch (name : String) {named : List NamedValue}
    (hnamed : ∀ a ∈ named, a.2.Keyed L.key) :
    L.Yields .expr (g.dispatch cx name args named) (g'.dispatch cx' name args named) := by
  refine Rel.look fun m m' hm => G.callProcedure? S hargs hnamed hm name ?_
  rw [(S.alike hm).instance? S.host, (S.alike hm).lookup?]
  cases hobject : m.instance? cx name with
  | some object =>
    have keyed := (S.keyed hm).instance? S.key_normal S.host_keyed hobject
    exact S.pure (keyed_construct S.key_normal keyed hnamed)
  | none =>
    cases hcallee : (m.chain.lookup? name).filter Value.isCallable with
    | some callee =>
      have hseen := (Option.filter_eq_some_iff.mp hcallee).1
      exact G.invoke S hargs ((S.keyed hm).chain.lookup? hseen)
    | none => exact S.reply name hargs

end Callees

/-- SUPER calls the method of a parent on `THIS`. -/
theorem callSuper (method : Ident) (args : List Expr) (h : L.rule.exprs args) :
    L.Yields .expr (g.callSuper cx method args) (g'.callSuper cx' method args) := by
  refine Rel.look fun m m' hm => ?_
  rw [(S.alike hm).lookup?, (S.alike hm).findType? S.host]
  cases hthis : m.chain.lookup? "THIS" with
  | none => exact S.pure .nil
  | some this =>
    dsimp only
    cases (this.tag?.bind (m.findType? cx)).bind (·.parent) with
    | none => exact S.pure .nil
    | some parent =>
      refine S.bind (G.items S args h) fun vs hvs => ?_
      have hargs := hvs.cons ((S.keyed hm).chain.lookup? hthis)
      rw [S.host]
      split
      · simpa only [S.host] using S.reply _ hargs
      · refine Rel.look fun m m' hm => G.callProcedure? S hargs (List.forall_mem_nil _) hm _ ?_
        exact S.fail nofun

/-- The receiver of a call is a variable, a namespace or a value. -/
theorem receiver (object : Expr) (h : L.rule.expr object) :
    L.Yields .expr (g.receiver cx object) (g'.receiver cx' object) := by
  cases object with
  | var name =>
    refine Rel.look fun m m' hm => ?_
    rw [(S.alike hm).lookup?, S.host]
    split
    · cases hns : cx.host.namespaces.object? name.name with
      | some ns => exact S.pure (S.host_keyed.namespaces.object? S.key_normal hns)
      | none => exact G.eval _ h
    · exact G.eval _ h
  | _ => exact G.eval _ h

/-- A member of a value is called, or its name if the value has no such member. -/
theorem callMember (object : Expr) (method : Ident) (args : List Expr) (h : L.rule.expr object)
    (hargs : L.rule.exprs args) :
    L.Yields .expr (g.callMember cx object method args) (g'.callMember cx' object method args) := by
  refine S.bind (G.receiver S object h) fun this hthis => ?_
  refine S.bind (G.items S args hargs) fun vs hvs => ?_
  split
  · exact G.invoke S hvs hthis
  · refine Rel.look fun m m' hm => ?_
    rw [(S.alike hm).memberOf S.host]
    have hfound : (m.memberOf cx this method.name).Keyed L.key :=
      Machine.Keyed.memberOf S.key_normal S.host_keyed hthis method.name
    dsimp only
    split
    · refine S.bind (G.invoke S hvs hfound) fun v hv => ?_
      exact S.pure (keyed_orTarget (fun _ => keyed_of_chainTarget? hthis hfound) hv)
    · split
      · exact S.pure hfound
      · refine S.bind (G.dispatch S hvs _ (List.forall_mem_nil _)) fun v hv => ?_
        refine S.pure (keyed_orTarget ?_ hv)
        intro target htarget
        split at htarget
        · cases htarget
          exact hthis
        · cases htarget

end Engines

end Lockstep

end BasicScript
