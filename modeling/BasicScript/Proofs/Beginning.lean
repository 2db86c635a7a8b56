import BasicScript.Proofs.Fuel

/-!
# The beginning of a run

A run may stop on the way, because its fuel is used up or because something has happened that a watch
does not let pass.  It is the *beginning* of another run if it does the same up to there.

* `Run.Begins` and `Engine.Begins`: one computation, or one evaluator, is the beginning of another.
  Every level of evaluation keeps that up.
* `Watch.begins`: an evaluator that is stopped by a watch is the beginning of another one, if each
  level of it is, as long as everything passes.
* `Watch.Passes.eq_of_begins`: a run that nothing has stopped is the same as what it begins.
* `Eventually`: how a computation ends with enough fuel.
-/

namespace BasicScript

variable {α β : Type}

/-! ## Outcomes -/

/-- The computation has stopped on the way. -/
def Stops (r : EStateM.Result Halt Machine α) : Prop :=
  ∃ m, r = .error .exhausted m

/-- Two computations have the same outcome, or the first one has stopped before. -/
def Precedes (r r' : EStateM.Result Halt Machine α) : Prop :=
  r' = r ∨ Stops r

theorem Precedes.refl (r : EStateM.Result Halt Machine α) : Precedes r r :=
  .inl rfl

/-- If the second run goes on where the first one has stopped, it may stop too. -/
theorem Precedes.trans {r₁ r₂ r₃ : EStateM.Result Halt Machine α} (h : Precedes r₁ r₂)
    (h' : Precedes r₂ r₃) : Precedes r₁ r₃ := by
  rcases h with rfl | stops
  · exact h'
  · exact .inr stops

/-- A computation that ends with a result has not stopped before. -/
theorem Precedes.of_ok {r r' : EStateM.Result Halt Machine α} {a : α} {m : Machine}
    (h : Precedes r r') (hr : r = .ok a m) : r' = .ok a m := by
  rcases h with same | ⟨m₁, stopped⟩
  · exact same.trans hr
  · rw [hr] at stopped
    cases stopped

namespace Run

/-- One computation is the beginning of another. -/
def Begins (x x' : Run α) : Prop :=
  ∀ m, Precedes (x m) (x' m)

/-- Nothing comes after a computation that has stopped. -/
theorem precedes_bind {x x' : Run α} {f f' : α → Run β} {m : Machine} (h : Precedes (x m) (x' m))
    (hf : ∀ a m₁, x m = .ok a m₁ → Precedes (f a m₁) (f' a m₁)) :
    Precedes ((x >>= f) m) ((x' >>= f') m) := by
  rw [Lockstep.bind_apply, Lockstep.bind_apply]
  rcases h with same | ⟨m₁, stopped⟩
  · rw [same]
    cases hx : x m with
    | ok a m₁ => exact hf a m₁ hx
    | error halt m₁ => exact .inl rfl
  · rw [stopped]
    exact .inr ⟨m₁, rfl⟩

/-- A statement takes up signals, and for want of fuel it has stopped all the same. -/
theorem precedes_surface {x x' : Run Flow} {m : Machine} (h : Precedes (x m) (x' m)) :
    Precedes (Run.surface x m) (Run.surface x' m) := by
  unfold Run.surface
  rcases h with same | ⟨m₁, stopped⟩
  · rw [same]
    exact .refl _
  · rw [stopped]
    exact .inr ⟨m₁, rfl⟩

end Run

/-! ## Lockstep without any condition -/

/-- There is no condition on the code. -/
theorem Invariant.void_lax : Invariant.void.rule.Lax :=
  fun _ _ => rfl

/-- There is no condition on the machine. -/
theorem Invariant.void_holds (l : Level) (m : Machine) : Invariant.void.Holds l m :=
  ⟨.of_lax Invariant.void_lax, trivial⟩

section Void

variable {l : Level} {x x' : Run α} {Q : α → Prop}

/-- A computation in lockstep with another one is its beginning, if it may only stop early. -/
theorem Run.Begins.of_rel (h : Invariant.void.stopping.Rel l x x' Q) : x.Begins x' := by
  intro m
  rcases Invariant.ends_cases (h m m ⟨rfl, Invariant.void_holds l m⟩) with
    ⟨same, -⟩ | ⟨halt, m₁, rfl, stopped, -, -⟩
  · exact .inl same
  · exact .inr ⟨m₁, stopped⟩

/-- A computation that is the beginning of another one is in lockstep with it. -/
theorem Run.Begins.rel (h : x.Begins x') (hQ : ∀ a, Q a) :
    Invariant.void.stopping.Rel l x x' Q := by
  have alone : ∀ m r, Invariant.void.stopping.EndsAlone l m Q r := by
    intro m r
    cases r with
    | ok a m₁ => exact .ok (hQ a) ⟨rfl, Invariant.void_holds l m₁⟩ ⟨trivial, trivial⟩
    | error halt m₁ => exact .error trivial ⟨rfl, Invariant.void_holds l m₁⟩ ⟨trivial, trivial⟩
  rintro _ m ⟨rfl, -⟩
  rcases h m with same | ⟨m₁, stopped⟩
  · rw [same]
    exact Invariant.ends_self (alone m _)
  · rw [stopped]
    exact .early rfl ⟨trivial, trivial⟩ (alone m₁ _)

end Void

/-! ## Evaluators -/

/-- One evaluator is the beginning of another. -/
structure Engine.Begins (g g' : Engine) : Prop where
  fuel : g.fuel ≤ g'.fuel
  eval : ∀ e, (g.eval e).Begins (g'.eval e)
  exec : ∀ s, (g.exec s).Begins (g'.exec s)

/-- Evaluators in lockstep are the one the beginning of the other. -/
theorem Engine.Begins.of_engines {g g' : Engine} (h : Invariant.void.stopping.Engines g g') :
    g.Begins g' where
  fuel := h.fuel.elim (fun heq => Nat.le_of_eq heq.symm) And.right
  eval e := .of_rel (h.eval e (Invariant.void_lax.expr e))
  exec s := .of_rel (h.exec ⟨.main, []⟩ s (Invariant.void_lax.stmt _ s))

/-- An evaluator is the beginning of one with more fuel. -/
theorem engine_begins (cx : Context) {n n' : Nat} (hle : n ≤ n') :
    (engine cx n).Begins (engine cx n') :=
  .of_engines ((Invariant.void_sound cx).stopping.engines_le rfl hle)

namespace Engine.Begins

variable {g g' : Engine} (h : g.Begins g') (cx : Context)
include h

/-- An evaluator that is the beginning of another one is in lockstep with it. -/
theorem engines : Invariant.void.stopping.Engines g g' :=
  ⟨.inr ⟨rfl, h.fuel⟩, fun e _ => (h.eval e).rel fun v => v.keyed_of_all fun _ => trivial,
    fun _ s _ => (h.exec s).rel fun _ => trivial⟩

/-- What an evaluator makes of an expression begins what the other one makes of it. -/
theorem evalStep (e : Expr) :
    (BasicScript.evalStep cx g e).Begins (BasicScript.evalStep cx g' e) :=
  .of_rel (h.engines.evalStep (Invariant.void_sound cx).stopping e (Invariant.void_lax.expr e))

/-- What an evaluator makes of a statement begins what the other one makes of it. -/
theorem execStep (s : Stmt) :
    (BasicScript.execStep cx g s).Begins (BasicScript.execStep cx g' s) :=
  .of_rel (h.engines.execStep (Invariant.void_sound cx).stopping ⟨.main, []⟩ s
    (Invariant.void_lax.stmt _ s))

/-- The receiver of a call is found in the same way, as far as it goes. -/
theorem receiver (object : Expr) : (g.receiver cx object).Begins (g'.receiver cx object) :=
  .of_rel (h.engines.receiver (Invariant.void_sound cx).stopping object
    (Invariant.void_lax.expr object))

/-- The indices on the way to the target of a write are evaluated in the same way. -/
theorem steps (path : List TargetStep) : (g.steps path).Begins (g'.steps path) :=
  .of_rel (h.engines.steps (Invariant.void_sound {}).stopping path fun i _ =>
    Invariant.void_lax.expr i)

theorem topLevel (body : List Stmt) : (g.topLevel body).Begins (g'.topLevel body) :=
  .of_rel (h.engines.topLevel (Invariant.void_sound {}).stopping body
    (Invariant.void_lax.stmts _ body))

/-- A block goes on in the same way until it stops. -/
theorem block (body : List Stmt) : (g.block body).Begins (g'.block body) :=
  .of_rel (h.engines.block (Invariant.void_sound {}).stopping ⟨.main, []⟩ body
    (Invariant.void_lax.stmts _ body))

/-- A round of FOR goes on in the same way until it stops. -/
theorem forRound (x : Ident) (last step : Value) (ascending : Bool) (body : List Stmt) :
    (g.forRound x.name last step ascending body).Begins
      (g'.forRound x.name last step ascending body) :=
  .of_rel (h.engines.forRound (Invariant.void_sound {}).stopping ⟨.main, []⟩ x last step ascending
    body (Invariant.void_lax.stmts _ body))

end Engine.Begins

/-! ## Enough fuel -/

/-- How a computation ends with enough fuel. -/
def Eventually (cx : Context) (x : Engine → Run α) (m : Machine)
    (r : EStateM.Result Halt Machine α) : Prop :=
  ∃ n₀, ∀ n, n₀ ≤ n → x (engine cx n) m = r

section Eventually

variable {cx : Context} {x : Engine → Run α} {m m₁ : Machine}
  (hx : ∀ {g g' : Engine}, g.Begins g' → (x g).Begins (x g'))
include hx

/-- A computation that ends with a result has enough fuel. -/
theorem Eventually.of_ok {n : Nat} {a : α} (h : x (engine cx n) m = .ok a m₁) :
    Eventually cx x m (.ok a m₁) := by
  refine ⟨n, ?_⟩
  intro n' hle
  exact (hx (engine_begins cx hle) m).of_ok h

/-- With less fuel a computation ends in the same way or stops before. -/
theorem Eventually.precedes {r : EStateM.Result Halt Machine α} (h : Eventually cx x m r) (n : Nat) :
    Precedes (x (engine cx n) m) r := by
  obtain ⟨n₀, hn₀⟩ := h
  rw [← hn₀ (max n₀ n) (Nat.le_max_left n₀ n)]
  exact hx (engine_begins cx (Nat.le_max_right n₀ n)) m

end Eventually

/-! ## Watched runs -/

namespace Watch

variable {w : Watch} {cx : Context}

/-- The evaluator that stops where something does not pass. -/
noncomputable def stopped (w : Watch) (cx : Context) (fuel : Nat) : Engine :=
  (w.probe fun m => (.exhausted, m)).engine cx fuel

/-- A watched computation precedes what the computation precedes, if only as long as it passes. -/
theorem precedes_watched {passes : Machine → EStateM.Result Halt Machine α → Prop} {x : Run α}
    {m : Machine} {r : EStateM.Result Halt Machine α} (h : passes m (x m) → Precedes (x m) r) :
    Precedes (Run.watched passes (fun m => (.exhausted, m)) x m) r := by
  unfold Run.watched
  split
  · next hpasses => exact h hpasses
  · exact .inr ⟨m, rfl⟩

/-- **A watched evaluator as the beginning of another**, level by level. -/
theorem begins {g : Nat → Engine} (hfuel : ∀ n, n ≤ (g n).fuel)
    (heval : ∀ n e, (w.stopped cx n).Begins (g n) →
      (evalStep cx (w.stopped cx n) e).Begins ((g (n + 1)).eval e))
    (hexec : ∀ n s m r, (w.stopped cx n).Begins (g n) → w.exec s m r →
      Precedes (Run.surface (execStep cx (w.stopped cx n) s) m) ((g (n + 1)).exec s m))
    (n : Nat) : (w.stopped cx n).Begins (g n) := by
  induction n with
  | zero =>
    refine ⟨hfuel 0, fun e m => ?_, fun s m => ?_⟩
    · exact precedes_watched fun _ => .inr ⟨m, rfl⟩
    · exact precedes_watched fun _ => .inr ⟨m, rfl⟩
  | succ n ih =>
    refine ⟨hfuel (n + 1), fun e m => ?_, fun s m => ?_⟩
    · exact precedes_watched fun _ => heval n e ih m
    · exact precedes_watched fun hpasses => hexec n s m _ ih hpasses

/-- It is the beginning of the evaluator that is not watched. -/
theorem stopped_begins (w : Watch) (cx : Context) (n : Nat) :
    (w.stopped cx n).Begins (engine cx n) := by
  refine w.begins (fun _ => Nat.le_refl _) (fun n e h => ?_) (fun n s m r h _ => ?_) n
  · exact h.evalStep cx e
  · exact Run.precedes_surface (h.execStep cx s m)

/-- **A run that nothing has stopped** is the same as what it begins. -/
theorem Passes.eq_of_begins {n : Nat} {x : Engine → Run α} {g : Engine} {m : Machine}
    (hpasses : w.Passes cx n x m) (hbegins : (x (w.stopped cx n)).Begins (x g))
    (hfinished : ¬ Stops (x (engine cx n) m)) : x g m = x (engine cx n) m := by
  have hwatched : x (w.stopped cx n) m = x (engine cx n) m := hpasses _
  rcases hbegins m with same | stops
  · exact same.trans hwatched
  · rw [hwatched] at stops
    exact (hfinished stops).elim

/-! ### Statement by statement -/

section Statements

variable {n : Nat} {s : Stmt} {rest : List Stmt} {m m₁ : Machine}

/-- At the end of a program there is nothing left to watch. -/
theorem passes_nil : w.Passes cx n (fun g => g.topLevel []) m :=
  fun _ => rfl

/-- A program passes if its first statement does and then the rest. -/
theorem passes_cons (hs : w.Passes cx n (fun g => g.exec s) m)
    (hok : (BasicScript.engine cx n).exec s m = .ok .normal m₁)
    (hrest : w.Passes cx n (fun g => g.topLevel rest) m₁) :
    w.Passes cx n (fun g => g.topLevel (s :: rest)) m := by
  intro alarm
  have hwatched : ((w.probe alarm).engine cx n).exec s m = .ok .normal m₁ := (hs alarm).trans hok
  show (((w.probe alarm).engine cx n).exec s >>= _) m = ((BasicScript.engine cx n).exec s >>= _) m
  rw [Run.bind_of_ok hwatched, Run.bind_of_ok hok]
  exact hrest alarm

/-- A statement passes if it does itself and everything in it. -/
theorem passes_exec (hs : w.exec s m ((BasicScript.engine cx (n + 1)).exec s m))
    (hstep : ∀ alarm, execStep cx ((w.probe alarm).engine cx n) s m =
      execStep cx (BasicScript.engine cx n) s m) :
    w.Passes cx (n + 1) (fun g => g.exec s) m := by
  intro alarm
  have hsurface : Run.surface (execStep cx ((w.probe alarm).engine cx n) s) m =
      (BasicScript.engine cx (n + 1)).exec s m := by
    show _ = Run.surface (execStep cx (BasicScript.engine cx n) s) m
    unfold Run.surface
    rw [hstep alarm]
  show Run.watched (w.exec s) alarm
    (Run.surface (execStep cx ((w.probe alarm).engine cx n) s)) m = _
  unfold Run.watched
  rw [hsurface]
  exact if_pos hs

end Statements

end Watch

end BasicScript
