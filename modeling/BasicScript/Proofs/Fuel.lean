import BasicScript.Proofs.Invariant

/-!
# Fuel

Fuel is a bound on a run and nothing else.  With more of it, a run that has come to an end does the
same again: the two runs go on in lockstep until the fuel of the first one is used up.

* `Machine.run_of_le`: a finished run of a program does not depend on how much fuel there was.
-/

namespace BasicScript

/-- The invariant that asks for nothing. -/
def Invariant.void : Invariant where
  rule := ⟨fun _ _ => true⟩

/-- Where there is no condition there is nothing to check. -/
theorem Invariant.void_sound (cx : Context) : Invariant.void.Sound cx := {}

/-- The verdict depends on the outcome alone. -/
theorem Run.verdict_congr {α : Type} {x y : Run α} {m : Machine} (h : x m = y m) :
    x.verdict m = y.verdict m := by
  unfold Run.verdict
  rw [h]

/-- A computation that is exhausted has no other verdict. -/
theorem Run.verdict_of_exhausted {α : Type} {x : Run α} {m m₁ : Machine}
    (h : x m = .error .exhausted m₁) : (x.verdict m).1 = .exhausted := by
  unfold Run.verdict
  rw [h]

/-- **A finished run does not depend on fuel**: with more of it there is the same verdict and the
same machine. -/
theorem Machine.run_of_le {cx : Context} {fuel fuel' : Nat} {m : Machine} {p : Program}
    (hle : fuel ≤ fuel') (hfinished : (m.run cx fuel p).1 ≠ .exhausted) :
    m.run cx fuel' p = m.run cx fuel p := by
  have S := Invariant.void_sound cx
  have hlax : Invariant.void.rule.Lax := fun _ _ => rfl
  have engines : Invariant.void.stopping.Engines (engine cx fuel) (engine cx fuel') :=
    S.stopping.engines_le rfl hle
  let start := (m.adopt p).2.load (m.adopt p).1
  have hstart : Invariant.void.Holds .stmt start := ⟨.of_lax hlax, trivial⟩
  have ends := engines.topLevel S.stopping _ (hlax.stmts _ (m.adopt p).1.statements)
    start start ⟨rfl, hstart⟩
  rcases Invariant.ends_cases ends with ⟨same, -⟩ | ⟨halt, m₁, rfl, stopped, -, -⟩
  · exact Run.verdict_congr same
  · exact (hfinished (Run.verdict_of_exhausted stopped)).elim

end BasicScript
