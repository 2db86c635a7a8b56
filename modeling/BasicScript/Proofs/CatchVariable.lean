import BasicScript.Proofs.Frame
import BasicScript.Proofs.LocalConstant

/-!
# The variable of a CATCH

A failure that ends the body of a TRY is bound to the variable of the CATCH, in the innermost scope
and without a look at GLOBAL marks.  The handler reads it back by the rules for all variables.  In the
root, in a block and in a frame it finds the failure, whatever else is bound there; but if the scope
is not the root and has marked the name GLOBAL, the read goes to the root and the failure is out of
sight.

* `Failure.toValue_eq`: the map by which a handler sees a failure.
* `Engine.attempt_of_failed`: how a TRY goes on after its body has failed.
* `catch_variable_seen_unless_marked` is the main statement, and `catch_variable_not_seen` a handler
  that reads nothing.
-/

namespace BasicScript

/-- The map of a failure has its message, the name of its kind and the tag of errors. -/
theorem Failure.toValue_eq (e : Failure) :
    e.toValue = .map [("KIND", .str e.kind.name), ("MESSAGE", .str e.message),
      ("_type", .str "Error")] := by
  have hfirst : "KIND" < "MESSAGE" := by decide
  have hlast : ¬ "_type" < "KIND" ∧ ¬ "_type" < "MESSAGE" := by decide
  unfold toValue Value.tagged Table.ofList Table.insertAll
  simp [Table.insert, Value.typeKey, hfirst, hlast]

namespace Engine

variable {g : Engine} {m m₁ : Machine} {body : List Stmt} {e : Failure}

/-- After its body has failed, a TRY with a CATCH goes on as a TRY around the handler alone, which
starts with its variable bound. -/
theorem attempt_of_failed (x : Ident) (h : g.block body m = .error (.failed e) m₁)
    (handler : List Stmt) (cleanup : Option (List Stmt)) :
    g.attempt body (some ⟨some x, handler⟩) cleanup m =
      g.attempt handler none cleanup { m₁ with chain := m₁.chain.bind x.name e.toValue } := by
  have hguarded : g.guarded body (some ⟨some x, handler⟩) m =
      g.guarded handler none { m₁ with chain := m₁.chain.bind x.name e.toValue } := by
    unfold guarded
    rw [h]
    dsimp only
    cases g.block handler { m₁ with chain := m₁.chain.bind x.name e.toValue } with
    | ok flow m₂ => rfl
    | error halt m₂ => cases halt <;> rfl
  unfold attempt
  cases cleanup with
  | none => exact hguarded
  | some cleanup =>
    dsimp only
    rw [hguarded]

end Engine

/-- A block leaves the scopes the frames and blocks that they are. -/
theorem frames_of_block {cx : Context} {n : Nat} {m m₁ : Machine} {body : List Stmt} {halt : Halt}
    (h : (engine cx n).block body m = .error halt m₁) :
    m₁.chain.inner.map (·.frame) = m.chain.inner.map (·.frame) := by
  have S := effectInvariant_sound {} cx
  have hlax : (effectInvariant {}).rule.Lax := Rule.globalsAmong_lax
  have hmarked : Chain.Marked {} m.chain.inner := Chain.marked_of_all (fun _ => rfl) _
  have ends := (S.engines n).block S.lockstep ⟨.main, []⟩ body (hlax.stmts _ body) m m
    ⟨rfl, .of_lax hlax, hmarked⟩
  have changes : m.chain.Changes {} (machineAfter ((engine cx n).block body m)).chain :=
    (Invariant.moves_of_ends ends).2
  rw [h] at changes
  exact changes.frames_eq

/-- A name that is bound in the innermost scope is declared. -/
theorem Chain.isDeclared_bind (c : Chain) (name : String) (v : Value) :
    (c.bind name v).isDeclared name = true := by
  obtain ⟨_ | ⟨s, rest⟩, root⟩ := c <;>
    simp [isDeclared, bind, modifyTop, Scope.bind, Scope.write, Scope.knows, Table.contains]

open Chain in
/-- **The variable of a CATCH is seen by the handler, unless a mark stands in front of it.**  If the
body of a TRY fails, then the handler starts in the scope of the TRY, with the machine as the body has
left it but for the variable of the CATCH; with or without a FINALLY the TRY goes on as one around the
handler alone.  The variable is bound to the map with the tag `Error`, the message and the kind of the
failure.  At this moment the name of the variable evaluates to that map, whatever the scopes are, if
the innermost scope is the root or has not marked the name GLOBAL.  If it is not the root and has
marked the name, then the name evaluates to the variable of the root, or to the empty value if the
root has none. -/
theorem catch_variable_seen_unless_marked (cx : Context) (n : Nat) (m m₁ : Machine)
    (body : List Stmt) (x : Ident) (e : Failure)
    (h : (engine cx n).block body m = .error (.failed e) m₁) :
    let m₂ := { m₁ with chain := m₁.chain.bind x.name e.toValue }
    (∀ handler cleanup, exec cx (n + 1) (.attempt body (some ⟨some x, handler⟩) cleanup) m =
      exec cx (n + 1) (.attempt handler none cleanup) m₂) ∧
    m₁.chain.inner.map (·.frame) = m.chain.inner.map (·.frame) ∧
    e.toValue = .map [("KIND", .str e.kind.name), ("MESSAGE", .str e.message),
      ("_type", .str "Error")] ∧
    (¬ m₁.chain.Redirects x.name → ∀ fuel,
      eval cx (fuel + 1) (.var x) m₂ = .ok e.toValue m₂) ∧
    (m₁.chain.Redirects x.name → ∀ fuel, eval cx (fuel + 1) (.var x) m₂ =
      .ok ((Table.get? m₁.chain.root.vars x.name).getD .nil) m₂) := by
  intro m₂
  refine ⟨fun handler cleanup => ?_, frames_of_block h, e.toValue_eq, fun hhere fuel => ?_,
    fun hredirects fuel => ?_⟩
  · show Run.surface ((engine cx n).attempt _ _ _) m = Run.surface ((engine cx n).attempt _ _ _) m₂
    unfold Run.surface
    rw [Engine.attempt_of_failed x h]
  · have hlookup : m₂.chain.lookup? x.name = some e.toValue :=
      lookup?_modifyTop hhere rfl (Table.get?_insert_self _ x.name e.toValue)
    show Run.lift (m₂.chain.get x.name) m₂ = _
    rw [get_of_lookup? hlookup]
    rfl
  · obtain ⟨hredirects', hroot⟩ : m₂.chain.Redirects x.name ∧ m₂.chain.root = m₁.chain.root :=
      hredirects.modifyTop rfl
    have hget : m₂.chain.get x.name = .ok ((Table.get? m₁.chain.root.vars x.name).getD .nil) := by
      unfold Chain.get
      rw [lookup?_of_redirects hredirects', hroot]
      cases Table.get? m₁.chain.root.vars x.name with
      | some v => rfl
      | none =>
        -- The handler has declared the name, so OPTION EXPLICIT has nothing to say.
        have hdeclared : m₂.chain.isDeclared x.name = true := isDeclared_bind _ _ _
        rw [hdeclared, Bool.not_true, Bool.and_false]
        rfl
    show Run.lift (m₂.chain.get x.name) m₂ = _
    rw [hget]
    rfl

/-- A failure that is thrown in the root, where the variable has another value and is marked GLOBAL. -/
theorem catch_variable_seen_unless_marked_inRoot :
    let x := Ident.ofString "E"
    let m : Machine := { chain := ⟨[], { vars := [("E", .int 1)], globals := ["E"] }⟩ }
    let m₂ := { m with chain := m.chain.bind "E" (Failure.thrown "boom").toValue }
    (engine {} 2).block [.raise (.str "boom")] m = .error (.failed (.thrown "boom")) m ∧
      ¬ m.chain.Redirects x.name ∧
      eval {} 1 (.var x) m₂ = .ok (Failure.thrown "boom").toValue m₂ := by
  intro x m m₂
  have hfailed : (engine {} 2).block [.raise (.str "boom")] m =
    .error (.failed (.thrown "boom")) m := rfl
  have hhere : ¬ m.chain.Redirects x.name := fun h => h.1 rfl
  exact ⟨hfailed, hhere,
    (catch_variable_seen_unless_marked {} 2 m m _ x _ hfailed).2.2.2.1 hhere 0⟩

/-- In a procedure that has marked the variable of a CATCH as GLOBAL, the handler finds the empty
value in place of the failure. -/
theorem catch_variable_not_seen :
    let x := Ident.ofString "E"
    let frame := Chain.push {} (Chain.newFrame {})
    let m : Machine := { chain := frame.addGlobal "E" }
    let attempt : Stmt := .attempt [.raise (.str "boom")]
      (some ⟨some x, [.returnWith (some (.var x))]⟩) none
    ∃ m', exec {} 4 attempt m = .ok (.returned .nil) m' :=
  ⟨_, rfl⟩

end BasicScript
