import BasicScript.Proofs.Lockstep.Evaluator

/-!
# Invariants of a run

A run that is compared with itself.  An invariant says which machines are *good* at each level and
which *steps* from machine to machine are allowed; once the elementary actions respect it
(`Invariant.Sound`), every evaluation, execution and call does, with every outcome
(`Invariant.Sound.engines`), whatever follows from it can be watched for on the way
(`Invariant.Sound.passes`), and a step leads from every moment to every later one
(`Invariant.Sound.henceforth`).

The conditions on elementary actions are about machines alone: no computation occurs in them.
-/

namespace BasicScript

/-- What a run keeps up. -/
structure Invariant where
  /-- The rule that all code obeys. -/
  rule : Rule
  /-- The machines that may occur at a level. -/
  good : Level → Machine → Prop := fun _ _ => True
  /-- What a computation may do to a machine. -/
  step : Level → Machine → Machine → Prop := fun _ _ _ => True
  /-- How a statement at a place may end. -/
  flow : Place → Flow → Prop := fun _ _ => True
  /-- Why a computation may halt. -/
  halt : Halt → Prop := fun _ => True

namespace Invariant

variable {α : Type} (I : Invariant)

/-- A machine that has loaded only what obeys the rule, and that is good at a level. -/
def Holds (l : Level) (m : Machine) : Prop :=
  m.Obeys I.rule ∧ I.good l m

/-- A step to a good machine. -/
def Moves (l : Level) (m m₁ : Machine) : Prop :=
  I.good l m₁ ∧ I.step l m m₁

/-- A run beside itself, where the first of the two may end early. -/
def beside (early : Halt → Prop) : Lockstep where
  rule := I.rule
  near l m m' := m' = m ∧ I.Holds l m
  step := I.Moves
  flow := I.flow
  halt := I.halt
  early := early

/-- A run beside itself to the end. -/
def lockstep : Lockstep :=
  I.beside fun _ => False

/-- **The elementary actions respect an invariant.** -/
structure Sound (cx : Context) (I : Invariant) : Prop extends Lockstep.Admits cx I.lockstep where
  refl : ∀ {l m}, I.good l m → I.step l m m := by intros; trivial
  trans : ∀ {l m₁ m₂ m₃}, I.step l m₁ m₂ → I.step l m₂ m₃ → I.step l m₁ m₃ := by intros; trivial
  good_expr : ∀ {l m}, I.good l m → I.good .expr m := by intros; trivial
  moves_of_expr : ∀ {l m m₁}, I.good l m → I.Moves .expr m m₁ → I.Moves l m m₁ := by
    intros; exact ⟨trivial, trivial⟩
  good_stmt : ∀ {m}, I.good .entry m → I.good .stmt m := by intros; trivial
  step_stmt : ∀ {m m₁}, I.step .entry m m₁ → I.step .stmt m m₁ := by intros; trivial
  -- Whatever is no scope and no counter of calls may change.
  moves_of_same : ∀ {l m m₁}, I.good l m → m₁.chain = m.chain → m₁.depth = m.depth →
    I.Moves l m m₁ := by intros; exact ⟨trivial, trivial⟩
  -- Filling a scope that has just been opened.
  bindItem : ∀ {m} name v, I.good .item m →
    I.Moves .item m { m with chain := m.chain.bind name v } := by
    intros; exact ⟨trivial, trivial⟩
  bindEntry : ∀ {m} name v, I.good .entry m →
    I.Moves .entry m { m with chain := m.chain.bind name v } := by
    intros; exact ⟨trivial, trivial⟩
  -- Actions of statements.
  optionExplicit : ∀ {m} p, I.rule.allows p .optionExplicit → I.good .stmt m →
    I.Moves .stmt m { m with chain := m.chain.modifyTop ({ · with strict := true }) } := by
    intros; exact ⟨trivial, trivial⟩
  addGlobal : ∀ {m} p names n, I.rule.allows p (.globals names) → n ∈ names → I.good .stmt m →
    I.Moves .stmt m { m with chain := m.chain.addGlobal n.name } := by
    intros; exact ⟨trivial, trivial⟩
  define : ∀ {m} name v, I.good .stmt m →
    I.Moves .stmt m { m with chain := (m.chain.define name v).1 } := by
    intros; exact ⟨trivial, trivial⟩
  set : ∀ {m c} name v, I.good .stmt m → m.chain.set name v = .ok c →
    I.Moves .stmt m { m with chain := c } := by intros; exact ⟨trivial, trivial⟩
  defineLocal : ∀ {m c} name v, I.good .stmt m → m.chain.defineLocal name v = .ok c →
    I.Moves .stmt m { m with chain := c } := by intros; exact ⟨trivial, trivial⟩
  defineConst : ∀ {m c} name v, I.good .stmt m → m.chain.defineConst name v = .ok c →
    I.Moves .stmt m { m with chain := c } := by intros; exact ⟨trivial, trivial⟩
  bindCaught : ∀ {m} p x e, I.rule.allows p (.attempt (some x)) → I.good .stmt m →
    I.Moves .stmt m { m with chain := m.chain.bind x.name (Failure.toValue e) } := by
    intros; exact ⟨trivial, trivial⟩
  -- Scopes are opened, and closed again sooner or later.
  openBlock : ∀ {m}, I.good .expr m → I.good .item (m.opened Chain.newBlock) := by
    intros; trivial
  closeBlock : ∀ {m m₁ m₂}, I.good .expr m → I.Moves .item (m.opened Chain.newBlock) m₁ →
    I.Moves .item m₁ m₂ → I.Moves .expr m₁.closed m₂.closed := by
    intros; exact ⟨trivial, trivial⟩
  openResource : ∀ {m} name v, I.good .stmt m →
    I.good .stmt (m.opened fun c => c.newBlock.bind name v) := by intros; trivial
  closeResource : ∀ {m m₁ m₂} name v, I.good .stmt m →
    I.Moves .stmt (m.opened fun c => c.newBlock.bind name v) m₁ → I.Moves .stmt m₁ m₂ →
    I.Moves .stmt m₁.closed m₂.closed := by
    intros; exact ⟨trivial, trivial⟩
  openFrame : ∀ {m}, I.good .expr m → m.depth < cx.config.maxDepth →
    I.good .entry m.enterFrame := by intros; trivial
  closeFrame : ∀ {m m₁ m₂}, I.good .expr m → m.depth < cx.config.maxDepth →
    I.Moves .stmt m.enterFrame m₁ → I.Moves .stmt m₁ m₂ →
    I.Moves .expr m₁.leaveFrame m₂.leaveFrame := by
    intros; exact ⟨trivial, trivial⟩
  openLambda : ∀ {m} bindings, I.good .expr m → m.depth < cx.config.maxDepth →
    I.good .entry (m.enterLambda bindings) := by intros; trivial
  closeLambda : ∀ {m m₁ m₂} bindings, I.good .expr m → m.depth < cx.config.maxDepth →
    I.Moves .stmt (m.enterLambda bindings) m₁ → I.Moves .stmt m₁ m₂ →
    I.Moves .expr (m.leaveLambda m₁) (m.leaveLambda m₂) := by
    intros; exact ⟨trivial, trivial⟩

/-! ## From machines to computations -/

variable {I} {cx : Context} {l : Level} {m m₁ : Machine} {early : Halt → Prop}

/-- The invariant holds with other scopes if they have been reached from those of the machine. -/
theorem Holds.withChain (h : I.Holds l m) (c : Chain) (hm : I.Moves l m { m with chain := c }) :
    I.Holds l { m with chain := c } :=
  ⟨⟨h.1.subs, h.1.functions, h.1.lambdas⟩, hm.1⟩

/-- To do nothing is a step. -/
theorem Sound.stays (S : I.Sound cx) (h : I.good l m) : I.Moves l m m :=
  ⟨h, S.refl h⟩

/-- A change of the machine. -/
theorem keeps_modify {f : Machine → Machine}
    (h : ∀ m, I.Holds l m → (f m).Obeys I.rule ∧ I.Moves l m (f m)) :
    (I.beside early).Keeps l (modify f) (modify f) := by
  rintro _ m ⟨rfl, hm⟩
  obtain ⟨hobeys, hgood, hstep⟩ := h m hm
  exact .ok trivial ⟨rfl, hobeys, hgood⟩ ⟨hgood, hstep⟩

/-- The journal is outside of every invariant. -/
theorem keeps_log (S : I.Sound cx) (events : List Event) :
    (I.beside early).Keeps l (Run.log events) (Run.log events) :=
  keeps_modify fun _ hm =>
    ⟨⟨hm.1.subs, hm.1.functions, hm.1.lambdas⟩, S.moves_of_same hm.2 rfl rfl⟩

/-- A change of the scopes. -/
theorem keeps_modifyChain {f : Chain → Chain}
    (h : ∀ m, I.good l m → I.Moves l m { m with chain := f m.chain }) :
    (I.beside early).Keeps l (Run.modifyChain f) (Run.modifyChain f) :=
  keeps_modify fun m hm => ⟨(hm.withChain _ (h m hm.2)).1, h m hm.2⟩

/-- A write that leaves the scopes alone when it fails. -/
theorem keeps_writeChain (S : I.Sound cx) {f : Chain → Except Failure Chain}
    (hf : ∀ c, FailsOrdinarily (f c))
    (h : ∀ m c, I.good l m → f m.chain = .ok c → I.Moves l m { m with chain := c }) :
    (I.beside early).Keeps l (Run.writeChain f) (Run.writeChain f) := by
  rintro _ m ⟨rfl, hm⟩
  rw [Run.writeChain_eq]
  unfold Run.onChain Chain.tryWrite
  cases hc : f m.chain with
  | ok c => exact .ok trivial ⟨rfl, hm.withChain c (h m c hm.2 hc)⟩ (h m c hm.2 hc)
  | error e => exact .error (S.halt_failed e (hf m.chain e hc)) ⟨rfl, hm⟩ (S.stays hm.2)

/-- A declaration changes the scopes even when it fails. -/
theorem keeps_define (S : I.Sound cx) (name : String) (v : Value) :
    (I.beside early).Keeps .stmt (Run.define name v) (Run.define name v) := by
  rintro _ m ⟨rfl, hm⟩
  have hmoves := S.define name v hm.2
  rw [Run.define_eq]
  unfold Run.onChain
  dsimp only [Prod.swap]
  cases hr : (m.chain.define name v).2 with
  | ok u => exact .ok trivial ⟨rfl, hm.withChain _ hmoves⟩ hmoves
  | error e =>
    have halts := S.halt_failed e (Chain.define_ordinary m.chain name v e hr)
    exact .error halts ⟨rfl, hm.withChain _ hmoves⟩ hmoves

/-- Loading a type changes neither scopes nor the counter of calls. -/
theorem loadType_same (m : Machine) (d : TypeDecl) :
    (m.loadType d).chain = m.chain ∧ (m.loadType d).depth = m.depth := by
  unfold Machine.loadType
  generalize hm₀ : ({ m with types := _ } : Machine) = m₀
  have hstart : m₀.chain = m.chain ∧ m₀.depth = m.depth := by rw [← hm₀]; exact ⟨rfl, rfl⟩
  generalize d.methods = qs
  clear hm₀
  induction qs generalizing m₀ with
  | nil => exact hstart
  | cons q qs ih => cases q <;> exact ih _ hstart

/-- Computations end in the same ways whether one of them may end early or not. -/
theorem Sound.admits (S : I.Sound cx) : (I.beside early).Admits cx :=
  ⟨S.flow_normal, S.flow_returned, S.flow_keyed, S.flow_broke, S.flow_continued, S.flow_exited, S.flow_signal,
    S.flow_loop, S.flow_sub, S.flow_function, S.flow_main, S.halt_failed, S.halt_exhausted,
    S.halt_native⟩

/-- A computation inside a scope that is opened and closed. -/
theorem bracket {outer start last : Level} {enter : Machine → Machine}
    {leave : Machine → Machine → Machine} (hobeys : (enter m).Obeys I.rule)
    (hopen : I.good start (enter m)) (hstart : I.Moves last (enter m) (enter m))
    (hleave : ∀ m₁ : Machine, m₁.Obeys I.rule → (leave m m₁).Obeys I.rule)
    (hreturn : leave m (enter m) = m)
    (hclose : ∀ {m₁ m₂}, I.Moves last (enter m) m₁ → I.Moves last m₁ m₂ →
      I.Moves outer (leave m m₁) (leave m m₂)) :
    (I.beside early).Bracket outer start last enter leave m m := by
  have hmoves : ∀ {m₁}, I.Moves last (enter m) m₁ → I.Moves outer m (leave m m₁) := by
    intro m₁ hstep
    have closed := hclose hstart hstep
    rw [hreturn] at closed
    exact closed
  refine ⟨⟨rfl, hobeys, hopen⟩, ?_, hmoves, hclose⟩
  rintro _ m₁ hstep ⟨rfl, hm₁⟩
  exact ⟨rfl, hleave m₁ hm₁.1, (hmoves hstep).1⟩

/-- **A sound invariant is a sound lockstep of a run with itself**, to the end or until the fuel of
one of the two is used up. -/
theorem Sound.beside (S : I.Sound cx) (hearly : ∀ h, early h → h = .exhausted) :
    (I.beside early).Sound cx cx where
  toAdmits := S.admits
  host := rfl
  maxElements := rfl
  maxDepth := rfl
  debugPrint := fun _ _ => rfl
  note := by
    intro text
    split
    · exact keeps_log S _
    · rintro _ m ⟨rfl, hm⟩
      exact .ok trivial ⟨rfl, hm⟩ (S.stays hm.2)
  alike := by rintro l _ m ⟨rfl, -⟩; exact .refl m
  obeys := by rintro l _ m ⟨rfl, hm⟩; exact hm.1
  refl := by rintro l _ m ⟨rfl, hm⟩; exact S.stays hm.2
  trans := fun h h' => ⟨h'.1, S.trans h.2 h'.2⟩
  near_expr := by rintro l _ m ⟨rfl, hm⟩; exact ⟨rfl, hm.1, S.good_expr hm.2⟩
  near_of_expr := by
    rintro l _ m _ m₁ ⟨rfl, hm⟩ hstep ⟨rfl, hm₁⟩
    exact ⟨rfl, hm₁.1, (S.moves_of_expr hm.2 hstep).1⟩
  step_of_expr := by
    rintro l _ m m₁ m₂ ⟨rfl, hm⟩ hstep hstep'
    exact S.moves_of_expr (S.moves_of_expr hm.2 hstep).1 hstep'
  near_stmt := by rintro _ m ⟨rfl, hm⟩; exact ⟨rfl, hm.1, S.good_stmt hm.2⟩
  step_stmt := fun h => ⟨S.good_stmt h.1, S.step_stmt h.2⟩
  early_signal := fun f h => by cases hearly _ h
  early_failed := fun p x e _ h => by cases hearly _ h
  near_alone := by rintro h l _ m - ⟨rfl, hm⟩; exact ⟨rfl, hm⟩
  step_alone := by rintro h l n _ m - ⟨rfl, -⟩ hstep; exact hstep
  readVar := by
    rintro name _ m ⟨rfl, hm⟩
    show (I.beside early).Ends _ m _ (Run.lift (m.chain.get name) m)
      (Run.lift (m.chain.get name) m)
    cases hr : m.chain.get name with
    | ok v => exact .ok (v.keyed_of_all fun _ => trivial) ⟨rfl, hm⟩ (S.stays hm.2)
    | error e =>
      have halts := S.halt_failed e (Chain.get_ordinary m.chain name e hr)
      exact .error halts ⟨rfl, hm⟩ (S.stays hm.2)
  log := fun events => keeps_log S events
  learn := fun label r hr => keeps_modify fun m hm =>
    ⟨hm.1.learn label hr, S.moves_of_same hm.2 (m.chain_learn label r) (m.depth_learn label r)⟩
  bindItem := fun name v _ _ => keeps_modifyChain fun m hm => S.bindItem name v hm
  bindEntry := fun name v _ _ => keeps_modifyChain fun m hm => S.bindEntry name v hm
  optionExplicit := fun p hp => keeps_modifyChain fun m hm => S.optionExplicit p hp hm
  addGlobal := fun p names n hp hn => keeps_modifyChain fun m hm => S.addGlobal p names n hp hn hm
  define := fun name v _ _ => keeps_define S name v
  set := fun name v _ _ => keeps_writeChain S (fun c => Chain.set_ordinary c name v)
    fun m c hm hc => S.set name v hm hc
  defineLocal := fun name v _ _ => keeps_writeChain S
    (fun c => Chain.defineLocal_ordinary c name v) fun m c hm hc => S.defineLocal name v hm hc
  defineConst := fun name v _ _ => keeps_writeChain S
    (fun c => Chain.defineConst_ordinary c name v) fun m c hm hc => S.defineConst name v hm hc
  bindCaught := fun p x e hp => keeps_modifyChain fun m hm => S.bindCaught p x e hp hm
  declareType := fun d hd => keeps_modify fun m hm => by
    split
    · exact ⟨hm.1, S.moves_of_same hm.2 rfl rfl⟩
    · exact ⟨hm.1.loadType hd, S.moves_of_same hm.2 (loadType_same m d).1 (loadType_same m d).2⟩
  block := by
    rintro _ m ⟨rfl, hm⟩
    have hopen := S.openBlock hm.2
    exact bracket ⟨hm.1.subs, hm.1.functions, hm.1.lambdas⟩ hopen (S.stays hopen)
      (fun _ h => ⟨h.subs, h.functions, h.lambdas⟩) rfl (S.closeBlock hm.2)
  resource := by
    rintro _ m name v - - ⟨rfl, hm⟩
    have hopen := S.openResource name v hm.2
    exact bracket ⟨hm.1.subs, hm.1.functions, hm.1.lambdas⟩ hopen (S.stays hopen)
      (fun _ h => ⟨h.subs, h.functions, h.lambdas⟩) rfl (S.closeResource name v hm.2)
  frame := by
    rintro _ m ⟨rfl, hm⟩ hdepth
    have hopen := S.openFrame hm.2 hdepth
    exact bracket ⟨hm.1.subs, hm.1.functions, hm.1.lambdas⟩ hopen (S.stays (S.good_stmt hopen))
      (fun _ h => ⟨h.subs, h.functions, h.lambdas⟩) rfl (S.closeFrame hm.2 hdepth)
  lambda := by
    rintro _ m bindings - ⟨rfl, hm⟩ hdepth
    have hopen := S.openLambda bindings hm.2 hdepth
    exact bracket ⟨hm.1.subs, hm.1.functions, hm.1.lambdas⟩ hopen (S.stays (S.good_stmt hopen))
      (fun _ h => ⟨h.subs, h.functions, h.lambdas⟩) rfl (S.closeLambda bindings hm.2 hdepth)

/-- What is checked of an invariant is what is to be checked of the run beside itself. -/
theorem Sound.lockstep (S : I.Sound cx) : I.lockstep.Sound cx cx :=
  S.beside fun _ h => h.elim

/-! ## What runs keep up -/

section Ends

variable {Q : α → Prop} {r r' : EStateM.Result Halt Machine α}

/-- A run beside itself ends in one way, or one of the two ends early. -/
theorem ends_cases (h : (I.beside early).Ends l m Q r r') :
    (r' = r ∧ (I.beside early).EndsAlone l m Q r) ∨
      ∃ halt m₁, early halt ∧ r = .error halt m₁ ∧ I.Moves l m m₁ ∧
        (I.beside early).EndsAlone l m₁ Q r' := by
  cases h with
  | ok result near step =>
    obtain ⟨rfl, hm₁⟩ := near
    exact .inl ⟨rfl, .ok result ⟨rfl, hm₁⟩ step⟩
  | error halts near step =>
    obtain ⟨rfl, hm₁⟩ := near
    exact .inl ⟨rfl, .error halts ⟨rfl, hm₁⟩ step⟩
  | early early step later => exact .inr ⟨_, _, early, rfl, step, later⟩

/-- What is known of a run that goes on alone is known of the run beside itself. -/
theorem ends_self (h : (I.beside early).EndsAlone l m Q r) : (I.beside early).Ends l m Q r r := by
  cases h with
  | ok result near step => exact .ok result near step
  | error halts near step => exact .error halts near step

/-- The invariant holds at the end. -/
theorem holds_of_endsAlone (h : (I.beside early).EndsAlone l m Q r) :
    I.Holds l (machineAfter r) := by
  cases h with
  | ok result near step => exact near.2
  | error halts near step => exact near.2

/-- The machine at the end has been reached from the one at the beginning. -/
theorem moves_of_endsAlone (h : (I.beside early).EndsAlone l m Q r) :
    I.Moves l m (machineAfter r) := by
  cases h with
  | ok result near step => exact step
  | error halts near step => exact step

/-- A run beside itself to the end. -/
theorem endsAlone_of_ends (h : I.lockstep.Ends l m Q r r') :
    r' = r ∧ I.lockstep.EndsAlone l m Q r := by
  rcases ends_cases h with h | ⟨halt, m₁, early, -⟩
  · exact h
  · exact early.elim

/-- A run beside itself ends as it does. -/
theorem eq_of_ends (h : I.lockstep.Ends l m Q r r') : r' = r :=
  (endsAlone_of_ends h).1

/-- **The machine after a computation**, however it ended. -/
theorem moves_of_ends (h : I.lockstep.Ends l m Q r r') : I.Moves l m (machineAfter r) :=
  moves_of_endsAlone (endsAlone_of_ends h).2

/-- All code that is loaded at the end obeys the rule. -/
theorem obeys_of_ends (h : I.lockstep.Ends l m Q r r') : (machineAfter r).Obeys I.rule :=
  (holds_of_endsAlone (endsAlone_of_ends h).2).1

end Ends

/-! ## Runs that are stopped -/

/-- A run beside itself, where the first of the two may be stopped. -/
def stopping (I : Invariant) : Lockstep :=
  I.beside (· = .exhausted)

section Stopping

variable {Q : α → Prop} {r r' : EStateM.Result Halt Machine α} (S : I.Sound cx)
include S

/-- What is checked of an invariant is enough for a run that may stop early. -/
theorem Sound.stopping : I.stopping.Sound cx cx :=
  S.beside fun _ h => h

/-- A run that is stopped at its end has done nothing else before. -/
theorem endsAlone_stopAfter (stop : Machine → Prop) (h : I.stopping.EndsAlone l m Q r) :
    I.stopping.EndsAlone l m Q (stopAfter stop r) := by
  unfold stopAfter
  split
  · have hholds := holds_of_endsAlone h
    exact .error S.halt_exhausted ⟨rfl, hholds⟩ (moves_of_endsAlone h)
  · exact h

/-- Of two computations the first one is stopped earlier, or they are stopped together. -/
theorem ends_stopAfter (stop later : Machine → Prop) (h : I.stopping.Ends l m Q r r') :
    I.stopping.Ends l m Q (stopAfter (fun m => stop m ∨ later m) r) (stopAfter later r') := by
  rcases ends_cases h with ⟨rfl, halone⟩ | ⟨halt, m₁, rfl, rfl, hmoves, halone⟩
  · by_cases hlater : later (machineAfter r')
    · have together : stopAfter (fun m => stop m ∨ later m) r' = stopAfter later r' := by
        unfold stopAfter
        rw [if_pos (.inr hlater), if_pos hlater]
      rw [together]
      exact ends_self (endsAlone_stopAfter S later halone)
    · by_cases hstop : stop (machineAfter r')
      · have stopped : stopAfter (fun m => stop m ∨ later m) r' =
            .error .exhausted (machineAfter r') := if_pos (.inl hstop)
        rw [stopped]
        refine .early rfl (moves_of_endsAlone halone) (endsAlone_stopAfter S later ?_)
        -- The second run is where the first one has been stopped.
        have hholds := holds_of_endsAlone halone
        cases halone with
        | ok result near => exact .ok result near (S.stays hholds.2)
        | error halts near => exact .error halts near (S.stays hholds.2)
      · have goes : stopAfter (fun m => stop m ∨ later m) r' = r' :=
          if_neg fun h => h.elim hstop hlater
        have goes' : stopAfter later r' = r' := if_neg hlater
        rw [goes, goes']
        exact ends_self halone
  · have stays : stopAfter (fun m => stop m ∨ later m)
        (.error .exhausted m₁ : EStateM.Result Halt Machine α) = .error .exhausted m₁ := ite_self _
    rw [stays]
    exact .early rfl hmoves (endsAlone_stopAfter S later halone)

/-- A run that is stopped under one more condition is the beginning of the other one. -/
theorem rel_stopped (stop later : Machine → Prop) {x x' : Run α} (h : I.stopping.Rel l x x' Q) :
    I.stopping.Rel l (Run.stopped (fun m => stop m ∨ later m) x) (Run.stopped later x') Q := by
  rintro _ m ⟨rfl, hm⟩
  have ends := ends_stopAfter S stop later (h m m ⟨rfl, hm⟩)
  unfold Run.stopped
  by_cases hlater : later m
  · rw [if_pos (.inr hlater), if_pos hlater]
    exact .error S.halt_exhausted ⟨rfl, hm⟩ (S.stays hm.2)
  · rw [if_neg hlater]
    by_cases hstop : stop m
    · rw [if_pos (.inl hstop)]
      have alone : I.stopping.EndsAlone l m Q (x' m) := S.stopping.endsAlone rfl h ⟨rfl, hm⟩
      exact .early rfl (S.stays hm.2) (endsAlone_stopAfter S later alone)
    · rw [if_neg fun h => h.elim hstop hlater]
      exact ends

/-- Stopping under one more condition is a probe. -/
theorem probes_stopping (stop later : Machine → Prop) :
    I.stopping.Probes (.stopping fun m => stop m ∨ later m) (.stopping later) where
  eval _ h := rel_stopped S stop later h
  exec _ h := rel_stopped S stop later h

end Stopping

/-! ## Computations -/

namespace Sound

variable (S : I.Sound cx) {x : Engine → Run α} {Q : α → Prop}
include S

/-- The evaluator with itself. -/
theorem engines (fuel : Nat) : I.lockstep.Engines (engine cx fuel) (engine cx fuel) :=
  S.lockstep.engines fuel

/-- **What follows from an invariant can be watched for** in every computation that is in lockstep
with itself whenever its engine is. -/
theorem passes {w : Watch} (W : I.lockstep.Shows w) (fuel : Nat) (hm : I.Holds l m)
    (hx : ∀ g g', I.lockstep.Engines g g' → I.lockstep.Rel l (x g) (x g') Q) :
    w.Passes cx fuel x m := by
  intro alarm
  exact eq_of_ends (hx _ _ (S.lockstep.watched W alarm fuel) m m ⟨rfl, hm⟩)

/-- What is true of all machines that obey the rule and are good inside expressions is true
throughout. -/
theorem throughout {P : Machine → Prop} (hP : ∀ m, m.Obeys I.rule → I.good .expr m → P m)
    (fuel : Nat) (hm : I.Holds l m)
    (hx : ∀ g g', I.lockstep.Engines g g' → I.lockstep.Rel l (x g) (x g') Q) :
    Throughout P cx fuel x m := by
  refine S.passes ⟨?_, ?_⟩ fuel hm hx
  · rintro e _ m r r' - ⟨rfl, hm⟩ hends
    rw [eq_of_ends hends]
    exact ⟨hP m hm.1 hm.2, hP _ (obeys_of_ends hends) (moves_of_ends hends).1⟩
  · rintro p s _ m r r' - ⟨rfl, hm⟩ hends
    rw [eq_of_ends hends]
    exact ⟨hP m hm.1 (S.good_expr hm.2),
      hP _ (obeys_of_ends hends) (S.good_expr (moves_of_ends hends).1)⟩

/-- **From every moment a step leads to every later one.** -/
theorem henceforth (fuel : Nat) (hm : I.Holds l m)
    (hx : ∀ g g', I.stopping.Engines g g' → I.stopping.Rel l (x g) (x g') Q) :
    Henceforth (I.step l) cx fuel x m := by
  intro stop later
  have engines := S.stopping.probed (probes_stopping S stop later) fuel
  have ends := hx _ _ engines m m ⟨rfl, hm⟩
  unfold Run.after
  rcases ends_cases ends with ⟨same, alone⟩ | ⟨halt, m₁, -, stopped, -, alone⟩
  · rw [same]
    exact S.refl (holds_of_endsAlone alone).2
  · rw [stopped]
    exact (moves_of_endsAlone alone).2

end Sound

end Invariant

end BasicScript
