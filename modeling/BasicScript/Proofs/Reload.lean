import BasicScript.Proofs.Load

/-!
# Loading one program after another

A machine may load a program when it has others already, and a name may be declared by several of
them.  Where the new program declares it as the old one did, or as a SUB, the new declaration takes
the place of the old one.  A new FUNCTION does not take the place of an old SUB: the two are in
different tables, nothing is ever taken out of a table, and the table of SUBs is asked first.

* `Program.DeclaresOnce`: the program loads one procedure of a name and nothing else under it.
* `dispatch_after_load` says which declaration is executed after a load, in every case.
* `function_hidden_by_sub`: a FUNCTION that is not executed.
-/

namespace BasicScript

/-- Of all that the program loads, the declarations at its top level and the methods of its types,
one thing goes under the name of a procedure: the procedure itself. -/
def Program.DeclaresOnce (p : Program) (q : Procedure) : Prop :=
  p.loadedAs q.name.name = [q]

/-- **What a name stands for after a load.**  A machine in any state loads a program that declares a
name once.  Then a call of the name executes the declaration of the program if that is a SUB, or if
the machine had no SUB of that name before; and otherwise it executes the SUB that the machine had
before. -/
theorem dispatch_after_load (m : Machine) (p : Program) (q : Procedure) (h : p.DeclaresOnce q) :
    ∃ n, ∀ (cx : Context) (g : Engine) (args : List Value) (named : List NamedValue),
      (q.sub?.isSome ∨ Table.get? m.subs q.name.name = none →
        g.dispatch cx q.name.name args named (m.loadProgram p) =
          g.callLoaded cx q.name.name (Labelling.procedure q n).1 args named
            (m.loadProgram p)) ∧
      ∀ old, q.sub? = none → Table.get? m.subs q.name.name = some old →
        g.dispatch cx q.name.name args named (m.loadProgram p) =
          g.callSub cx old args named (m.loadProgram p) := by
  -- The program as it is loaded has one procedure of the name too, with labels in it.
  have hlabelled := p.loadedAs_relabel m.nextLabel q.name.name
  rw [h] at hlabelled
  obtain ⟨q', rest, ⟨n, hq'⟩, hrest, hloaded⟩ := List.forall₂_cons_left_iff.mp hlabelled
  rw [List.forall₂_nil_left_iff.mp hrest] at hloaded
  have hsub : Table.get? (m.loadProgram p).subs q.name.name =
      q'.sub?.or (Table.get? m.subs q.name.name) := by
    show Table.get? ((m.adopt p).2.load (p.relabel m.nextLabel).1).subs _ = _
    rw [Machine.get?_subs_load, hloaded]
    cases hr : q'.sub? with
    | none => simp [hr]; rfl
    | some r => simp [hr]
  have hfunction : ∀ f, q'.function? q.name.name = some f →
      Table.get? (m.loadProgram p).functions q.name.name = some f := by
    intro f hf
    show Table.get? ((m.adopt p).2.load (p.relabel m.nextLabel).1).functions _ = _
    rw [Machine.get?_functions_load, hloaded]
    simp [hf]
  refine ⟨n, fun cx g args named => ⟨fun hwins => ?_, fun old hq hold => ?_⟩⟩
  · cases q with
    | sub name r =>
      rw [hq'] at hsub
      exact g.dispatch_of_procedure cx args named (g.callProcedure?_of_sub cx args named hsub)
    | function name result r =>
      rw [hq'] at hsub hfunction
      rcases hwins with hsome | hnone
      · cases hsome
      · rw [hnone] at hsub
        exact g.dispatch_of_procedure cx args named
          (g.callProcedure?_of_function cx args named hsub (hfunction _ rfl))
  · cases q with
    | sub name r => cases hq
    | function name result r =>
      rw [hq', hold] at hsub
      exact g.dispatch_of_procedure cx args named (g.callProcedure?_of_sub cx args named hsub)

/-- A SUB that does nothing. -/
def idleSub : Procedure :=
  .sub (.ofString "f") ⟨[], []⟩

/-- A FUNCTION of the same name that returns seven. -/
def sevenFunction : Procedure :=
  .function (.ofString "f") none ⟨[], [.returnWith (some (.int 7))]⟩

/-- A SUB takes the place of a FUNCTION that was loaded before. -/
theorem dispatch_after_load_idleSub :
    let m := (Machine.start {}).loadProgram ⟨[.procedure sevenFunction]⟩
    let loaded := m.loadProgram ⟨[.procedure idleSub]⟩
    Program.DeclaresOnce ⟨[.procedure idleSub]⟩ idleSub ∧
      ∃ n, (engine {} 9).dispatch {} "F" [] [] loaded =
        (engine {} 9).callLoaded {} "F" (Labelling.procedure idleSub n).1 [] [] loaded := by
  intro m loaded
  have hp : Program.DeclaresOnce ⟨[.procedure idleSub]⟩ idleSub := rfl
  obtain ⟨n, h⟩ := dispatch_after_load m ⟨[.procedure idleSub]⟩ idleSub hp
  exact ⟨hp, n, (h {} (engine {} 9) [] []).1 (.inl rfl)⟩

/-- A FUNCTION does not take the place of a SUB that was loaded before: the program declares its
name once, and yet a call yields nothing where the declaration yields seven. -/
theorem function_hidden_by_sub :
    let m := (Machine.start {}).loadProgram ⟨[.procedure idleSub]⟩
    let loaded := m.loadProgram ⟨[.procedure sevenFunction]⟩
    Program.DeclaresOnce ⟨[.procedure sevenFunction]⟩ sevenFunction ∧
      (Run.verdict ((engine {} 9).dispatch {} "F" [] []) loaded).1 = .done .nil ∧
      (Run.verdict ((engine {} 9).callLoaded {} "F" sevenFunction [] []) loaded).1 =
        .done (.int 7) := by
  exact ⟨rfl, rfl, rfl⟩

end BasicScript
