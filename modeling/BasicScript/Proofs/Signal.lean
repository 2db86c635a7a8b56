import BasicScript.Proofs.Invariant

/-!
# Signals

BREAK, CONTINUE and EXIT leave the statements around them until something takes them up: a loop, or
the call of a procedure.  In a well formed program each of them stands inside something that takes
it up, in the same body.  This file shows that then none of them gets any further, though signals
travel through blocks, branches, handlers and calls inside expressions.

* `wellFormed` is the rule of well formed programs.
* `signalInvariant` is the context of signals that a place admits, as an invariant of runs.
* `FramesSettle`: the body of whatever is called ends in a way that its frame takes up.
* `signals_taken_up` is the main statement.
-/

namespace BasicScript

/-! ## Well formed code -/

/-- **Well formed code.**  BREAK and CONTINUE stand in a loop of their body and EXIT in a loop of
its kind there, EXIT SUB in the body of a SUB, EXIT FUNCTION in that of a FUNCTION or lambda. -/
def wellFormed : Rule where
  allows p
    | .breakLoop | .continueLoop => !p.loops.isEmpty
    | .exit .sub => p.body = .sub
    | .exit .function => p.body = .function
    | .exit kind => kind ∈ p.loops
    | _ => true

/-- A statement of well formed code at a place may end with a flow. -/
def Place.Admits (p : Place) : Flow → Prop
  | .normal | .returned _ => True
  | .broke => wellFormed.allows p .breakLoop
  | .continued => wellFormed.allows p .continueLoop
  | .exited t => wellFormed.allows p (.exit t)

/-- The frame of a body takes up a flow: the body has come to its end, or it was left by RETURN or
by an EXIT of its own kind. -/
def Body.TakesUp (b : Body) (f : Flow) : Prop :=
  f = .normal ∨ (∃ v, f = .returned v) ∨
    (b = .sub ∧ f = .exited .sub) ∨ (b = .function ∧ f = .exited .function)

/-- A loop passes on only what is meant for something around it. -/
theorem Place.Admits.of_propagate {p : Place} {t : ExitTarget} {f f' : Flow}
    (h : (p.inside t).Admits f) (hstep : f.stepOf t = .propagate f') : p.Admits f' := by
  cases f with
  | normal => cases hstep
  | broke => cases hstep
  | continued => cases hstep
  | returned v =>
    cases hstep
    trivial
  | exited t' =>
    unfold Flow.stepOf at hstep
    dsimp only at hstep
    split at hstep
    · cases hstep
    next hne =>
    cases hstep
    -- The EXIT is for another kind of loop, so that loop is not the one just left.
    cases t' <;> simp_all [Place.Admits, wellFormed, Place.inside]

/-- Outside of all loops only what the frame takes up is left. -/
theorem Place.Admits.takesUp {b : Body} {f : Flow} (h : (⟨b, []⟩ : Place).Admits f) :
    b.TakesUp f := by
  cases f with
  | normal => exact .inl rfl
  | returned v => exact .inr (.inl ⟨v, rfl⟩)
  | broke => cases h
  | continued => cases h
  | exited t => cases t <;> simp_all [Place.Admits, wellFormed, Body.TakesUp]

/-! ## The invariant -/

/-- Statements end in flows that their place admits, failures are ordinary, and no computation
halts with a signal. -/
def signalInvariant : Invariant where
  rule := wellFormed
  flow := Place.Admits
  halt
    | .failed e => e.Ordinary
    | .signal _ => False
    | .exhausted => True

/-- The natives of a host do not complain about signals. -/
def Host.Ordinary (host : Host) : Prop :=
  ∀ name args e, (host.natives.call name args).result = .error e → e.Ordinary

/-- The elementary actions raise no signals and fail ordinarily, if the natives do. -/
theorem signalInvariant_sound (cx : Context) (hhost : cx.host.Ordinary) :
    signalInvariant.Sound cx where
  flow_normal := fun _ => trivial
  flow_returned := fun _ _ _ => trivial
  flow_broke := fun _ h => h
  flow_continued := fun _ h => h
  flow_exited := fun _ _ h => h
  flow_signal := fun _ _ h => h.elim
  flow_loop := fun _ _ _ _ h hstep => h.of_propagate hstep
  flow_sub := by
    intro f h
    rcases h.takesUp with rfl | ⟨v, rfl⟩ | ⟨-, rfl⟩ | ⟨hb, -⟩
    · exact .inl (.inl rfl)
    · exact .inl (.inr (.inl ⟨v, rfl⟩))
    · exact .inl (.inr (.inr rfl))
    · cases hb
  flow_function := by
    intro f h
    rcases h.takesUp with rfl | ⟨v, rfl⟩ | ⟨hb, -⟩ | ⟨-, rfl⟩
    · exact .inl (.inl rfl)
    · exact .inl (.inr (.inl ⟨v, rfl⟩))
    · cases hb
    · exact .inl (.inr (.inr rfl))
  flow_main := by
    intro f h
    rcases h.takesUp with rfl | ⟨v, rfl⟩ | ⟨hb, -⟩ | ⟨hb, -⟩
    · exact .inl (.inl rfl)
    · exact .inl (.inr (.inl ⟨v, rfl⟩))
    · cases hb
    · cases hb
  halt_failed := fun _ h => h
  halt_native := hhost

/-! ## Calls -/

/-- The body of a call has ended in a way that its frame takes up, or it has failed, or the fuel is
used up. -/
def Settles (b : Body) : EStateM.Result Halt Machine Flow → Prop
  | .ok f _ => b.TakesUp f
  | .error (.failed e) _ => e.Ordinary
  | .error (.signal _) _ => False
  | .error .exhausted _ => True

/-- Whatever procedure or lambda of a machine is called from here, with whatever arguments, its
frame takes up the flow of its body. -/
structure FramesSettle (cx : Context) (m : Machine) : Prop where
  subs : ∀ fuel name r args named, Table.get? m.subs name = some r →
    Settles .sub ((engine cx fuel).callRoutine cx r args named m)
  functions : ∀ fuel name f args named, Table.get? m.functions name = some f →
    Settles .function ((engine cx fuel).callRoutine cx f.routine args named m)
  lambdas : ∀ fuel entry bindings args, entry ∈ m.lambdas →
    Settles .function (Run.called cx.config.maxDepth
      (Run.fromRoot bindings ((engine cx fuel).enter entry.2 args [])) m)

/-- A body that ends as its place admits settles. -/
theorem settles_of_ends {b : Body} {l : Level} {m : Machine}
    {r r' : EStateM.Result Halt Machine Flow}
    (h : signalInvariant.lockstep.Ends l m (Place.Admits ⟨b, []⟩) r r') : Settles b r := by
  cases h with
  | ok result => exact result.takesUp
  | @error halt _ _ halts =>
    cases halt with
    | failed e => exact halts
    | signal f => exact halts.elim
    | exhausted => trivial
  | early early => exact early.elim

/-- The frames of well formed code settle. -/
theorem framesSettle_of_obeys {cx : Context} (hhost : cx.host.Ordinary) {m : Machine}
    (h : m.Obeys wellFormed) : FramesSettle cx m := by
  have S := signalInvariant_sound cx hhost
  have hm : signalInvariant.lockstep.near .expr m m := ⟨rfl, h, trivial⟩
  have hkeyed : ∀ v : Value, v.Keyed signalInvariant.lockstep.key :=
    Value.keyed_of_all fun _ => trivial
  refine ⟨?_, ?_, ?_⟩
  · intro fuel name r args named hr
    have call := (S.engines fuel).callRoutine S.lockstep (fun v (_ : v ∈ args) => hkeyed v)
      (fun a (_ : a ∈ named) => hkeyed a.2) .sub r (h.subs name r hr)
    exact settles_of_ends (call m m hm)
  · intro fuel name f args named hf
    have call := (S.engines fuel).callRoutine S.lockstep (fun v (_ : v ∈ args) => hkeyed v)
      (fun a (_ : a ∈ named) => hkeyed a.2) .function f.routine (h.functions name f hf)
    exact settles_of_ends (call m m hm)
  · intro fuel entry bindings args hentry
    have starts := (S.engines fuel).enter S.lockstep (fun v (_ : v ∈ args) => hkeyed v)
      (List.forall_mem_nil _) .function entry.2 (h.lambdas entry hentry)
    have hbindings := Table.keyed_of_all (K := signalInvariant.lockstep.key) (fun _ => trivial)
      bindings
    exact settles_of_ends (S.lockstep.inLambda hbindings starts m m hm)

/-! ## Runs -/

/-- Watches for evaluations that end with a signal. -/
def signalWatch : Watch where
  eval _ _ r := ∀ f m₁, r ≠ .error (.signal f) m₁
  exec _ _ _ := True

/-- What the watch looks for is what the invariant says. -/
theorem signalInvariant_shows : signalInvariant.lockstep.Shows signalWatch where
  eval := by
    rintro e m m' r r' - - hends f m₁ rfl
    cases hends with
    | error halts => exact halts
    | early early => exact early.elim
  exec := fun _ _ _ => trivial

/-- **Signals are taken up.**  A well formed program is run on a new machine by a host whose
natives do not complain about signals themselves.  Then no evaluation in the run ends with a
signal; at every moment of the run, the frame of whatever may be called takes up the flow of its
body; and the run does not fail over a signal that nothing has taken up. -/
theorem signals_taken_up (cx : Context) (hhost : cx.host.Ordinary) (config : Config) (p : Program)
    (hp : wellFormed.program p) (fuel : Nat) :
    let adopted := (Machine.start config).adopt p
    let loaded := adopted.2.load adopted.1
    signalWatch.Passes cx fuel (fun g => g.topLevel adopted.1.statements) loaded ∧
    Throughout (FramesSettle cx) cx fuel (fun g => g.topLevel adopted.1.statements) loaded ∧
    ∀ e m, (Machine.start config).run cx fuel p = (.failed e, m) →
      e.kind ≠ .invalidControlFlow := by
  intro adopted loaded
  have S := signalInvariant_sound cx hhost
  obtain ⟨hadopted, hobeys⟩ := (Machine.Obeys.start wellFormed config).adopt hp
  have hloaded : signalInvariant.Holds .stmt loaded := ⟨hobeys, trivial⟩
  have htop : ∀ g g', signalInvariant.lockstep.Engines g g' → signalInvariant.lockstep.Keeps .stmt
      (g.topLevel adopted.1.statements) (g'.topLevel adopted.1.statements) :=
    fun g g' G => G.topLevel S.lockstep _ hadopted
  refine ⟨S.passes signalInvariant_shows fuel hloaded htop, ?_, ?_⟩
  · exact S.throughout (fun m hobeys _ => framesSettle_of_obeys hhost hobeys) fuel hloaded htop
  · intro e m hrun
    have hends := htop _ _ (S.engines fuel) loaded loaded ⟨rfl, hloaded⟩
    change Run.verdict ((engine cx fuel).topLevel adopted.1.statements) loaded = _ at hrun
    unfold Run.verdict at hrun
    generalize (engine cx fuel).topLevel adopted.1.statements loaded = r at hends hrun
    cases hends with
    | ok => cases hrun
    | @error halt _ _ halts =>
      cases halt with
      | failed e' =>
        cases hrun
        exact halts
      | signal f => exact halts.elim
      | exhausted => cases hrun
    | early early => exact early.elim

/-- A loop that is left by BREAK inside a TRY, in a SUB that is left by EXIT SUB in its FINALLY. -/
def brokenLoop : Program :=
  ⟨[.procedure (.sub (.ofString "F") ⟨[], [.doLoop [.attempt [.breakLoop] none none],
      .attempt [] none (some [.exit .sub])]⟩),
    .call (.ofString "F") [] []]⟩

/-- No signal is left over where a loop is left inside a TRY, and a SUB in a FINALLY. -/
theorem signals_taken_up_brokenLoop :
    (∀ name args e, (({} : Host).natives.call name args).result = .error e → e.Ordinary) ∧
    wellFormed.program brokenLoop ∧
    ∀ e m, (Machine.start {}).run {} 20 brokenLoop = (.failed e, m) →
      e.kind ≠ .invalidControlFlow := by
  have hhost : ({} : Host).Ordinary := by
    intro name args e h
    cases h
    exact nofun
  have hp : wellFormed.program brokenLoop := by decide
  exact ⟨hhost, hp, (signals_taken_up {} hhost {} brokenLoop hp 20).2.2⟩

end BasicScript
