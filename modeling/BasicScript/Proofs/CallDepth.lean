import BasicScript.Proofs.Invariant

/-!
# The depth of calls

A machine counts the calls that are going on.  The counter goes up when the body of a procedure or
lambda is entered and down when it is left, and a body can be left in many ways: by its end, by
RETURN or EXIT, by a failure of its own, by a failure of one of its defaults, by a signal that its
caller has to deal with.

* `depthInvariant`: the counter is within its limit, and whatever happens it is afterwards as it was
  before.
* `callRoutine_apply`, `callLambda_apply`: exactly at the limit a body is not entered.
* `depth_balanced_and_bounded` puts these together, for whole runs and at every moment of them.
-/

namespace BasicScript

/-- What can be started on a machine. -/
inductive Operation where
  | eval (e : Expr)
  | exec (s : Stmt)
  /-- Calls what a name stands for. -/
  | dispatch (name : String) (args : List Value) (named : List NamedValue)
  /-- Calls a value. -/
  | invoke (callee : Value) (args : List Value)
  /-- Runs the statements of a program. -/
  | topLevel (body : List Stmt)

/-- Carries out an operation; its result does not matter. -/
def Operation.run (cx : Context) (g : Engine) : Operation → Run Unit
  | .eval e => discard (g.eval e)
  | .exec s => discard (g.exec s)
  | .dispatch name args named => discard (g.dispatch cx name args named)
  | .invoke callee args => discard (g.invoke cx callee args)
  | .topLevel body => g.topLevel body

namespace Lockstep

variable {L : Lockstep} {cx cx' : Context} {g g' : Engine} {α : Type} {l : Level}

/-- A computation whose value is dropped. -/
theorem Sound.discard (S : L.Sound cx cx') {x x' : Run α} {Q : α → Prop} (h : L.Rel l x x' Q) :
    L.Keeps l (discard x) (discard x') :=
  S.bind h fun _ _ => S.skip _

/-- Operations run in lockstep where neither code nor a key is forbidden. -/
theorem Engines.operation (S : L.Sound cx cx') (G : L.Engines g g') (hlax : L.rule.Lax)
    (op : Operation) (hkey : ∀ k, L.key k := by intro k; trivial) :
    L.Keeps .stmt (op.run cx g) (op.run cx' g') := by
  have hkeyed : ∀ v : Value, v.Keyed L.key := Value.keyed_of_all hkey
  cases op with
  | eval e => exact S.ofExpr (S.discard (G.eval e (hlax.expr e)))
  | exec s => exact S.discard (G.exec ⟨.main, []⟩ s (hlax.stmt _ s))
  | dispatch name args named =>
    have called := G.dispatch S (fun v (_ : v ∈ args) => hkeyed v) name
      fun a (_ : a ∈ named) => hkeyed a.2
    exact S.ofExpr (S.discard called)
  | invoke callee args =>
    have called := G.invoke S (fun v (_ : v ∈ args) => hkeyed v) (hkeyed callee)
    exact S.ofExpr (S.discard called)
  | topLevel body => exact G.topLevel S body (hlax.stmts _ body)

end Lockstep

/-! ## The counter -/

/-- The counter is within the limit of a context, and every computation leaves it as it was. -/
def depthInvariant (cx : Context) : Invariant where
  rule := ⟨fun _ _ => true⟩
  good _ m := m.depth ≤ cx.config.maxDepth
  step _ m m₁ := m₁.depth = m.depth

/-- A machine at the same depth is within the limit as before. -/
theorem moves_of_depth {cx : Context} {l : Level} {m m₁ : Machine}
    (hm : m.depth ≤ cx.config.maxDepth) (hdepth : m₁.depth = m.depth) :
    (depthInvariant cx).Moves l m m₁ := by
  refine ⟨?_, hdepth⟩
  show m₁.depth ≤ cx.config.maxDepth
  rw [hdepth]
  exact hm

/-- A call that is left is not counted any more. -/
theorem moves_of_left {cx : Context} {m₁ m₂ n₁ n₂ : Machine}
    (h : (depthInvariant cx).Moves .stmt m₁ m₂) (h₁ : n₁.depth = m₁.depth - 1)
    (h₂ : n₂.depth = m₂.depth - 1) : (depthInvariant cx).Moves .expr n₁ n₂ := by
  have hbound : m₂.depth ≤ cx.config.maxDepth := h.1
  have hdepth : m₂.depth = m₁.depth := h.2
  refine ⟨?_, ?_⟩
  · show n₂.depth ≤ cx.config.maxDepth
    omega
  · show n₂.depth = n₁.depth
    omega

/-- Only a call touches the counter, and it takes back what it has added. -/
theorem depthInvariant_sound (cx : Context) : (depthInvariant cx).Sound cx where
  refl := fun _ => rfl
  trans := fun h h' => h'.trans h
  good_expr := id
  moves_of_expr := fun _ h => h
  good_stmt := id
  step_stmt := id
  moves_of_same := fun hm _ hdepth => moves_of_depth hm hdepth
  bindItem := fun _ _ hm => ⟨hm, rfl⟩
  bindEntry := fun _ _ hm => ⟨hm, rfl⟩
  optionExplicit := fun _ _ hm => ⟨hm, rfl⟩
  addGlobal := fun _ _ _ _ _ hm => ⟨hm, rfl⟩
  define := fun _ _ hm => ⟨hm, rfl⟩
  set := fun _ _ hm _ => ⟨hm, rfl⟩
  defineLocal := fun _ _ hm _ => ⟨hm, rfl⟩
  defineConst := fun _ _ hm _ => ⟨hm, rfl⟩
  bindCaught := fun _ _ _ _ hm => ⟨hm, rfl⟩
  openBlock := id
  closeBlock := fun _ _ h => h
  openResource := fun _ _ hm => hm
  closeResource := fun _ _ _ _ h => h
  openFrame := fun _ hlt => hlt
  closeFrame := fun _ _ _ h => moves_of_left h rfl rfl
  openLambda := fun _ _ hlt => hlt
  closeLambda := fun _ _ _ _ h => moves_of_left h rfl rfl

/-! ## Entering a body -/

section Enter

variable {cx : Context} {m : Machine} (h : m.depth ≤ cx.config.maxDepth)
include h

/-- At the limit, and only there, the body of a procedure is not entered. -/
theorem callRoutine_apply (g : Engine) (r : Routine) (args : List Value)
    (named : List NamedValue) :
    g.callRoutine cx r args named m =
      if m.depth = cx.config.maxDepth then
        .error (.failed (.stackOverflow cx.config.maxDepth)) m
      else (g.enter r args named).andThen Machine.leaveFrame m.enterFrame := by
  unfold Engine.callRoutine
  rw [Run.called_within]
  by_cases hlimit : m.depth = cx.config.maxDepth
  · rw [if_pos hlimit, if_pos (by omega)]
  · rw [if_neg hlimit, if_neg (by omega)]

/-- At the limit, and only there, the body of a lambda is not entered. -/
theorem callLambda_apply (g : Engine) (fields : Table Value) (args : List Value) {r : Routine}
    (hr : m.lambda? fields = some r) :
    g.callLambda cx fields args m =
      if m.depth = cx.config.maxDepth then
        .error (.failed (.stackOverflow cx.config.maxDepth)) m
      else ((g.enter r args []).andThen m.leaveLambda >>= Flow.result)
        (m.enterLambda (closureOf fields)) := by
  have hcall : g.callLambda cx fields args m =
      (Run.called cx.config.maxDepth (Run.fromRoot (closureOf fields) (g.enter r args [])) >>=
        Flow.result) m := by
    unfold Engine.callLambda
    rw [Run.get_bind, hr]
  rw [hcall]
  change EStateM.bind _ _ _ = _
  unfold EStateM.bind
  rw [Run.called_fromRoot]
  by_cases hlimit : m.depth = cx.config.maxDepth
  · rw [if_pos hlimit, if_pos (by omega)]
  · rw [if_neg hlimit, if_neg (by omega)]
    rfl

end Enter

/-! ## The whole -/

/-- **The depth of calls is balanced and bounded.**  From a machine within the limit, every
operation ends with the counter as it was, whatever its outcome; during the operation the counter is
within the limit before and after everything that is evaluated or executed; and a body is refused
exactly at the limit, without any change to the machine, and otherwise runs one call deeper. -/
theorem depth_balanced_and_bounded (cx : Context) (fuel : Nat) (m : Machine)
    (h : m.depth ≤ cx.config.maxDepth) :
    (∀ op : Operation,
      ((op.run cx (engine cx fuel)).after m).depth = m.depth ∧
      Throughout (·.depth ≤ cx.config.maxDepth) cx fuel (fun g => op.run cx g) m) ∧
    (∀ (r : Routine) (args : List Value) (named : List NamedValue),
      (engine cx fuel).callRoutine cx r args named m =
        if m.depth = cx.config.maxDepth then
          .error (.failed (.stackOverflow cx.config.maxDepth)) m
        else ((engine cx fuel).enter r args named).andThen Machine.leaveFrame m.enterFrame) ∧
    (∀ (fields : Table Value) (args : List Value) (r : Routine), m.lambda? fields = some r →
      (engine cx fuel).callLambda cx fields args m =
        if m.depth = cx.config.maxDepth then
          .error (.failed (.stackOverflow cx.config.maxDepth)) m
        else (((engine cx fuel).enter r args []).andThen m.leaveLambda >>= Flow.result)
          (m.enterLambda (closureOf fields))) := by
  have S := depthInvariant_sound cx
  have hlax : (depthInvariant cx).rule.Lax := fun _ _ => rfl
  have hm : (depthInvariant cx).Holds .stmt m := ⟨.of_lax hlax, h⟩
  have hop : ∀ (op : Operation) (g g' : Engine), (depthInvariant cx).lockstep.Engines g g' →
      (depthInvariant cx).lockstep.Keeps .stmt (op.run cx g) (op.run cx g') :=
    fun op _ _ G => G.operation S.lockstep hlax op
  refine ⟨fun op => ⟨?_, ?_⟩, ?_, ?_⟩
  · have ends := hop op _ _ (S.engines fuel) m m ⟨rfl, hm⟩
    exact (Invariant.moves_of_ends ends).2
  · exact S.throughout (fun _ _ hgood => hgood) fuel hm (hop op)
  · exact fun r args named => callRoutine_apply h _ r args named
  · exact fun fields args r hr => callLambda_apply h _ fields args hr

/-- A SUB that calls itself, on a machine where two calls may be nested: the failure of the third
one leaves through both of the others. -/
theorem depth_balanced_selfCall :
    let cx : Context := { config := { maxDepth := 2 } }
    let m : Machine := { subs := [("F", ⟨[], [.call (.ofString "F") [] []]⟩)] }
    m.depth ≤ cx.config.maxDepth ∧
      (((Operation.dispatch "F" [] []).run cx (engine cx 9)).after m).depth = 0 := by
  intro cx m
  have h : m.depth ≤ cx.config.maxDepth := by decide
  exact ⟨h, ((depth_balanced_and_bounded cx 9 m h).1 (.dispatch "F" [] [])).1⟩

end BasicScript
