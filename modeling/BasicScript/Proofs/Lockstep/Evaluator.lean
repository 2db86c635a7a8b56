import BasicScript.Proofs.Lockstep.Statement

/-!
# Whole runs in lockstep

The levels of evaluation are tied together, so that what holds of the elementary actions holds of
all evaluations and executions, with any amount of fuel.

An evaluation goes on for a while, and a fact about its end does not say what happened on the way.
For that the evaluator is taken with a *probe*, which does something around every evaluation and
execution, however deep inside the run.  There are two of them here.

* A `Watch` gives an alarm in place of every outcome that does not pass.  If no alarm of any kind
  makes a difference, then everything in the run passes (`Watch.Passes`, `Throughout`).
* `Probe.stopping` stops the run at the first moment when the machine satisfies a condition, as if
  the fuel were used up.  What is true of the machine at a moment and at every later one is said by
  comparing two runs that are stopped (`Henceforth`).

`Lockstep.Sound.probed` is the main statement: evaluators of any fuel run in lockstep if their
probes fit together. -/

namespace BasicScript

variable {α : Type}

/-- The machine after a computation. -/
def machineAfter : EStateM.Result Halt Machine α → Machine
  | .ok _ m => m
  | .error _ m => m

/-- The machine after a computation that starts at some machine, however it ends. -/
def Run.after (x : Run α) (m : Machine) : Machine :=
  machineAfter (x m)

/-! ## Probes -/

/-- What is done around every evaluation and execution in a run. -/
structure Probe where
  eval : Expr → Run Value → Run Value
  exec : Stmt → Run Flow → Run Flow

namespace Probe

mutual

/-- The value of an expression in a run with a probe. -/
def evalProbed (w : Probe) (cx : Context) : Nat → Expr → Run Value
  | 0, e => w.eval e (throw .exhausted)
  | fuel + 1, e => w.eval e (evalStep cx ⟨fuel, w.evalProbed cx fuel, w.execProbed cx fuel⟩ e)

/-- How a statement ends in a run with a probe. -/
def execProbed (w : Probe) (cx : Context) : Nat → Stmt → Run Flow
  | 0, s => w.exec s (throw .exhausted)
  | fuel + 1, s =>
    w.exec s (Run.surface (execStep cx ⟨fuel, w.evalProbed cx fuel, w.execProbed cx fuel⟩ s))

end

/-- The evaluator with a probe and some fuel. -/
def engine (w : Probe) (cx : Context) (fuel : Nat) : Engine :=
  ⟨fuel, w.evalProbed cx fuel, w.execProbed cx fuel⟩

/-- The probe that does nothing. -/
def idle : Probe where
  eval _ x := x
  exec _ x := x

theorem engine_idle (cx : Context) (fuel : Nat) :
    idle.engine cx fuel = BasicScript.engine cx fuel := by
  induction fuel with
  | zero => rfl
  | succ fuel ih =>
    have heval : idle.evalProbed cx (fuel + 1) = evalStep cx (idle.engine cx fuel) := rfl
    have hexec : idle.execProbed cx (fuel + 1) =
      fun s => Run.surface (execStep cx (idle.engine cx fuel) s) := rfl
    unfold engine
    rw [heval, hexec, ih]
    rfl

end Probe

/-! ## Watching -/

/-- What is to be true of each evaluation and each execution in a run, given the machine before it
and its outcome. -/
structure Watch where
  eval : Expr → Machine → EStateM.Result Halt Machine Value → Prop
  exec : Stmt → Machine → EStateM.Result Halt Machine Flow → Prop

open Classical in
/-- A computation that gives the alarm in place of an outcome that does not pass. -/
noncomputable def Run.watched (passes : Machine → EStateM.Result Halt Machine α → Prop)
    (alarm : Machine → Halt × Machine) (x : Run α) : Run α := fun m =>
  if passes m (x m) then x m else .error (alarm m).1 (alarm m).2

namespace Watch

/-- Gives an alarm in place of everything that does not pass. -/
noncomputable def probe (w : Watch) (alarm : Machine → Halt × Machine) : Probe where
  eval e := Run.watched (w.eval e) alarm
  exec s := Run.watched (w.exec s) alarm

/-- Everything passes in a computation that starts at some machine: it makes no difference which
alarm there is for the rest. -/
def Passes (w : Watch) (cx : Context) (fuel : Nat) (x : Engine → Run α) (m : Machine) : Prop :=
  ∀ alarm, x ((w.probe alarm).engine cx fuel) m = x (engine cx fuel) m

/-- Watches for a property of machines before and after everything. -/
def always (P : Machine → Prop) : Watch where
  eval _ m r := P m ∧ P (machineAfter r)
  exec _ m r := P m ∧ P (machineAfter r)

end Watch

/-- An alarm that makes no difference is not given: the outcome passes. -/
theorem Run.passes_of_watched {passes : Machine → EStateM.Result Halt Machine α → Prop}
    {x : (Machine → Halt × Machine) → Run α} {m : Machine} {r : EStateM.Result Halt Machine α}
    (h : ∀ alarm, Run.watched passes alarm (x alarm) m = r) : passes m r := by
  refine Classical.byContradiction fun hfails => ?_
  -- Otherwise the outcome is the alarm, whichever that is.
  have halarm : ∀ alarm : Machine → Halt × Machine, r = .error (alarm m).1 (alarm m).2 := by
    intro alarm
    have hr := h alarm
    unfold Run.watched at hr
    split at hr
    · next hpasses =>
      rw [hr] at hpasses
      exact (hfails hpasses).elim
    · exact hr.symm
  have hsignal := halarm fun m => (.signal .normal, m)
  rw [halarm fun m => (.exhausted, m)] at hsignal
  cases hsignal

/-- If everything passes in an evaluation then its own outcome does. -/
theorem Watch.Passes.eval {w : Watch} {cx : Context} {fuel : Nat} {e : Expr} {m : Machine}
    (h : w.Passes cx fuel (fun g => g.eval e) m) : w.eval e m (BasicScript.eval cx fuel e m) := by
  cases fuel <;> exact Run.passes_of_watched h

/-- If everything passes in an execution then its own outcome does. -/
theorem Watch.Passes.exec {w : Watch} {cx : Context} {fuel : Nat} {s : Stmt} {m : Machine}
    (h : w.Passes cx fuel (fun g => g.exec s) m) : w.exec s m (BasicScript.exec cx fuel s m) := by
  cases fuel <;> exact Run.passes_of_watched h

/-- A property holds before and after every evaluation and execution during a computation. -/
def Throughout (P : Machine → Prop) (cx : Context) (fuel : Nat) (x : Engine → Run α)
    (m : Machine) : Prop :=
  (Watch.always P).Passes cx fuel x m

/-! ## Stopping -/

open Classical in
/-- Stops after a computation if the machine satisfies a condition. -/
noncomputable def stopAfter (stop : Machine → Prop) (r : EStateM.Result Halt Machine α) :
    EStateM.Result Halt Machine α :=
  if stop (machineAfter r) then .error .exhausted (machineAfter r) else r

open Classical in
/-- A computation that stops before or after it has run if the machine satisfies a condition. -/
noncomputable def Run.stopped (stop : Machine → Prop) (x : Run α) : Run α := fun m =>
  if stop m then .error .exhausted m else stopAfter stop (x m)

/-- Stops a run at the first moment, before or after an evaluation or execution, when the machine
satisfies a condition. -/
noncomputable def Probe.stopping (stop : Machine → Prop) : Probe where
  eval _ := Run.stopped stop
  exec _ := Run.stopped stop

/-- A relation holds in a computation from every moment to every later one.  The computation is
stopped at some moment, and it is stopped later; on the way out of it only the scopes that were open
at the start stay open. -/
def Henceforth (R : Machine → Machine → Prop) (cx : Context) (fuel : Nat) (x : Engine → Run α)
    (m : Machine) : Prop :=
  ∀ stop later : Machine → Prop,
    R ((x ((Probe.stopping fun m => stop m ∨ later m).engine cx fuel)).after m)
      ((x ((Probe.stopping later).engine cx fuel)).after m)

/-! ## Lockstep -/

namespace Lockstep

variable {L : Lockstep} {cx cx' : Context}

/-- The statements at the top level of a program. -/
theorem Engines.topLevel {g g' : Engine} (S : L.Sound cx cx') (G : L.Engines g g')
    (body : List Stmt) (h : L.rule.stmts ⟨.main, []⟩ body) :
    L.Keeps .stmt (g.topLevel body) (g'.topLevel body) := by
  induction body with
  | nil => exact S.skip ()
  | cons s rest ih =>
    rw [Rule.stmts, Bool.and_eq_true] at h
    refine S.bind (G.exec _ s h.1) fun f hf => ?_
    rcases S.flow_main f hf with (rfl | ⟨v, rfl⟩ | ⟨t, rfl⟩) | halts
    · exact ih h.2
    · exact S.skip ()
    · exact S.skip ()
    · cases f with
      | normal => exact ih h.2
      | returned v => exact S.skip ()
      | exited t => exact S.skip ()
      | broke => exact S.halt halts
      | continued => exact S.halt halts

/-- Two probes keep computations in lockstep. -/
structure Probes (L : Lockstep) (w w' : Probe) : Prop where
  eval : ∀ {e x x'}, L.rule.expr e → L.Yields .expr x x' →
    L.Yields .expr (w.eval e x) (w'.eval e x')
  exec : ∀ {p s x x'}, L.rule.stmt p s → L.Rel .stmt x x' (L.flow p) →
    L.Rel .stmt (w.exec s x) (w'.exec s x') (L.flow p)

/-- What follows from the relations between two runs can be watched for in the second of them. -/
theorem Rel.watched {l : Level} {x x' : Run α} {Q : α → Prop}
    {passes : Machine → EStateM.Result Halt Machine α → Prop} {alarm : Machine → Halt × Machine}
    (h : L.Rel l x x' Q)
    (hpasses : ∀ m m', L.near l m m' → L.Ends l m Q (x m) (x' m') → passes m' (x' m')) :
    L.Rel l x (Run.watched passes alarm x') Q := by
  intro m m' hm
  have ends := h m m' hm
  unfold Run.watched
  rw [if_pos (hpasses m m' hm ends)]
  exact ends

/-- Everything that a watch looks for follows from the relations between two runs. -/
structure Shows (L : Lockstep) (w : Watch) : Prop where
  eval : ∀ {e m m' r r'}, L.rule.expr e → L.near .expr m m' →
    L.Ends .expr m (Value.Keyed L.key) r r' → w.eval e m' r'
  exec : ∀ {p s m m' r r'}, L.rule.stmt p s → L.near .stmt m m' →
    L.Ends .stmt m (L.flow p) r r' → w.exec s m' r'

/-- If a watch sees the same on both sides, its probe does no more than look. -/
theorem Shows.probes {w : Watch} (W : L.Shows w) (alarm : Machine → Halt × Machine) :
    L.Probes .idle (w.probe alarm) where
  eval he h := h.watched fun _ _ => W.eval he
  exec hs h := h.watched fun _ _ => W.exec hs

namespace Sound

variable (S : L.Sound cx cx')
include S

/-- **Evaluators of any fuel run in lockstep**, with probes that fit together. -/
theorem probed {w w' : Probe} (W : L.Probes w w') (fuel : Nat) :
    L.Engines (w.engine cx fuel) (w'.engine cx' fuel) := by
  induction fuel with
  | zero =>
    refine ⟨.inl rfl, fun e he => ?_, fun p s hs => ?_⟩
    · exact W.eval he (S.halt S.halt_exhausted)
    · exact W.exec hs (S.halt S.halt_exhausted)
  | succ fuel ih =>
    refine ⟨.inl rfl, fun e he => ?_, fun p s hs => ?_⟩
    · exact W.eval he (ih.evalStep S e he)
    · exact W.exec hs (S.surface p (ih.execStep S p s hs))

/-- **Evaluators with the same fuel run in lockstep.** -/
theorem engines (fuel : Nat) : L.Engines (engine cx fuel) (engine cx' fuel) := by
  rw [← Probe.engine_idle, ← Probe.engine_idle]
  exact S.probed ⟨fun _ => id, fun _ => id⟩ fuel

/-- An evaluator runs in lockstep with one that has more fuel, until its own fuel is used up. -/
theorem engines_le (early : L.early .exhausted) {fuel fuel' : Nat} (hle : fuel ≤ fuel') :
    L.Engines (engine cx fuel) (engine cx' fuel') := by
  induction fuel generalizing fuel' with
  | zero =>
    refine ⟨.inr ⟨early, hle⟩, fun e he => ?_, fun p s hs => ?_⟩
    · exact S.halt_early early ((S.engines fuel').eval e he)
    · exact S.halt_early early ((S.engines fuel').exec p s hs)
  | succ fuel ih =>
    obtain ⟨fuel', rfl⟩ : ∃ n, fuel' = n + 1 := ⟨fuel' - 1, by omega⟩
    have below : L.Engines (engine cx fuel) (engine cx' fuel') := ih (by omega)
    refine ⟨.inr ⟨early, hle⟩, fun e he => ?_, fun p s hs => ?_⟩
    · exact below.evalStep S e he
    · exact S.surface p (below.execStep S p s hs)

/-- An evaluator runs in lockstep with one that is watched. -/
theorem watched {w : Watch} (W : L.Shows w) (alarm : Machine → Halt × Machine) (fuel : Nat) :
    L.Engines (engine cx fuel) ((w.probe alarm).engine cx' fuel) := by
  rw [← Probe.engine_idle]
  exact S.probed (W.probes alarm) fuel

end Sound

end Lockstep

end BasicScript
