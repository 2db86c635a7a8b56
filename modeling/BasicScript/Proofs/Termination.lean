import BasicScript.Proofs.Fuel
import BasicScript.Proofs.Termination.Statement

/-!
# Programs without loops come to an end

A program that has no FOR, WHILE, DO and REPEAT finishes, on every host and with every limit on the
depth of calls.  FOR EACH and comprehensions go through values that are there before they start, and
recursion ends at the limit; that a TRY may catch the failure there, and go on, does no harm.

* `engine_handles`: how much fuel is enough.
* `loopFree_run_finishes`: some fuel is enough for a program, and more of it makes no difference.
-/

namespace BasicScript

open Rule (loopFree)

/-- **How much fuel is enough**: one bound of code for each call that is left, and the size of the
code at hand. -/
theorem engine_handles (cx : Context) {N k n fuel : Nat} (hn : n ≤ N) (hfuel : k * N + n ≤ fuel) :
    (engine cx fuel).Handles cx N k n := by
  induction fuel generalizing k n with
  | zero =>
    obtain rfl : n = 0 := by omega
    exact ⟨nofun, nofun⟩
  | succ fuel ih =>
    cases n with
    | zero => exact ⟨nofun, nofun⟩
    | succ n =>
      have serves : (engine cx fuel).Serves cx N k n := by
        refine ⟨ih (by omega) (by omega), fun j hj => ih (Nat.le_refl N) ?_⟩
        -- A call less leaves room for code of any size.
        have hcalls : (j + 1) * N ≤ k * N := Nat.mul_le_mul_right N hj
        rw [Nat.succ_mul] at hcalls
        omega
      refine ⟨fun e he hsize => ?_, fun p s hs hsize => ?_⟩
      · exact serves.evalStep e he (by omega) (by omega)
      · exact .surface (serves.execStep p s hs (by omega) (by omega))

/-! ## Whole programs -/

/-- What a machine has loaded is smaller than its tables. -/
theorem Machine.Obeys.loads_modest {m : Machine} (h : m.Obeys loopFree) {N : Nat}
    (hN : sizeOf m.subs + sizeOf m.functions + sizeOf m.lambdas ≤ N) :
    m.Loads (Routine.Modest N) where
  subs name q hq := by
    have hmem := List.sizeOf_lt_of_mem (Table.mem_of_get? hq)
    rw [Prod.mk.sizeOf_spec] at hmem
    exact .of_sizeOf (h.subs name q hq) (by omega)
  functions name f hf := by
    have hmem := List.sizeOf_lt_of_mem (Table.mem_of_get? hf)
    have hrule := h.functions name f hf
    obtain ⟨fname, result, routine⟩ := f
    rw [Prod.mk.sizeOf_spec, FunctionDecl.mk.sizeOf_spec] at hmem
    exact .of_sizeOf hrule (by dsimp only; omega)
  lambdas entry hentry := by
    have hmem := List.sizeOf_lt_of_mem hentry
    have hrule := h.lambdas entry hentry
    obtain ⟨label, routine⟩ := entry
    rw [Prod.mk.sizeOf_spec] at hmem
    exact .of_sizeOf hrule (by dsimp only; omega)

/-- A program that has been loaded finishes. -/
theorem topLevel_finishes (cx : Context) {m : Machine} (hm : m.Obeys loopFree) {p : Program}
    (hp : loopFree.program p) :
    ∃ (fuel N k : Nat), Ended cx N k ((engine cx fuel).topLevel p.statements (m.load p)) := by
  let N := sizeOf m.subs + sizeOf m.functions + sizeOf m.lambdas + sizeOf p.statements + 1
  have hloads : m.Loads (Routine.Modest N) := hm.loads_modest (by omega)
  have hdeclares : ∀ s ∈ p.statements, s.Declares (Routine.Modest N) := by
    intro s hs
    have hmem := List.sizeOf_lt_of_mem hs
    exact Stmt.declares_modest (Rule.stmt_of_mem_stmts hp s hs) (by omega)
  have tame : (m.load p).Tame cx N cx.config.maxDepth :=
    ⟨hloads.load hdeclares, Nat.le_add_left _ _⟩
  have handles : (engine cx (cx.config.maxDepth * N + N)).Handles cx N cx.config.maxDepth N :=
    engine_handles cx (Nat.le_refl N) (Nat.le_refl _)
  exact ⟨_, N, _, handles.topLevel ⟨.main, []⟩ p.statements hp (by omega) _ tame⟩

/-- The verdict on a computation that has ended. -/
theorem Ended.verdict_ne_exhausted {α : Type} {cx : Context} {N k : Nat} {x : Run α} {m : Machine}
    (h : Ended cx N k (x m)) : (x.verdict m).1 ≠ .exhausted := by
  unfold Run.verdict
  generalize x m = r at h
  cases h with
  | ok => exact nofun
  | @error halt _ halts =>
    cases halt with
    | exhausted => exact (halts rfl).elim
    | failed => exact nofun
    | signal => exact nofun

/-- **Programs without loops come to an end.**  On every host and with every limit on the depth of
calls, a machine that has loaded only code without FOR, WHILE, DO and REPEAT finishes every program
that is free of them too: some fuel is enough, and with more of it the run is the same. -/
theorem loopFree_run_finishes (cx : Context) (m : Machine) (p : Program)
    (hm : m.Obeys loopFree) (hp : loopFree.program p) :
    ∃ fuel, (m.run cx fuel p).1 ≠ .exhausted ∧
      ∀ more, fuel ≤ more → m.run cx more p = m.run cx fuel p := by
  have hadopted := (hm.adopt hp).1
  have hm' : (m.adopt p).2.Obeys loopFree := ⟨hm.subs, hm.functions, hm.lambdas⟩
  obtain ⟨fuel, N, k, ended⟩ := topLevel_finishes cx hm' hadopted
  have hfinished : (m.run cx fuel p).1 ≠ .exhausted := ended.verdict_ne_exhausted
  exact ⟨fuel, hfinished, fun more hmore => Machine.run_of_le hmore hfinished⟩

/-- A SUB that calls itself twice: inside a TRY that catches the failure at the limit, and then
again. -/
theorem loopFree_run_finishes_overflowCaught :
    let cx : Context := { config := { maxDepth := 3 } }
    let call : Stmt := .call (.ofString "F") [] []
    let body : List Stmt := [.attempt [call] (some ⟨some (.ofString "E"), []⟩) none, call]
    let p : Program := ⟨[.procedure (.sub (.ofString "F") ⟨[], body⟩), call]⟩
    (Machine.start cx.config).Obeys loopFree ∧ loopFree.program p ∧
      ∃ fuel, ((Machine.start cx.config).run cx fuel p).1 ≠ .exhausted ∧
        ∀ more, fuel ≤ more →
          (Machine.start cx.config).run cx more p = (Machine.start cx.config).run cx fuel p := by
  intro cx call body p
  have hm : (Machine.start cx.config).Obeys loopFree := .start _ _
  have hp : loopFree.program p := rfl
  exact ⟨hm, hp, loopFree_run_finishes cx _ p hm hp⟩

end BasicScript
