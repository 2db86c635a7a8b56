import BasicScript.Proofs.Lockstep.Evaluator

/-!
# Simulations

Two runs of the same code on the same host, in contexts that differ in a setting.  The machines of
the two runs have loaded the same code and are equally deep in calls.  Their scopes and their
journals may differ, but only as far as two relations allow, and the first run may fail where the
second one does not.

* `Simulation` holds the two relations and the failures that only the first run has.
* `Simulation.Sound` lists what is to be checked: it is all about scopes and journals.
* `Simulation.Sound.run` is the main statement: the first run has one of its extra failures, or both
  runs end in the same way, with machines that correspond to each other.
-/

namespace BasicScript

variable {α : Type}

/-! ## Loading on two sides -/

namespace Machine

/-- The machine with other scopes and another journal. -/
def moved (m : Machine) (c : Chain) (j : Journal) : Machine :=
  { m with chain := c, journal := j }

variable (m : Machine) (c : Chain) (j : Journal)

/-- What a machine learns of lambdas has nothing to do with its scopes and its journal. -/
theorem learn_moved (label : Nat) (r : Routine) :
    (m.moved c j).learn label r = (m.learn label r).moved c j := by
  show (if m.lambdas.any (·.1 == label) then _ else _) = _
  unfold learn
  split <;> rfl

/-- What a procedure loads has nothing to do with them. -/
theorem loadProcedure_moved (name : String) (q : Procedure) :
    (m.moved c j).loadProcedure name q = (m.loadProcedure name q).moved c j := by
  cases q <;> rfl

/-- What a TYPE loads has nothing to do with them. -/
theorem loadType_moved (d : TypeDecl) : (m.moved c j).loadType d = (m.loadType d).moved c j := by
  unfold loadType
  generalize hm₀ : ({ m with types := m.types.register (.ofDecl d) } : Machine) = m₀
  have hstart : ({ m.moved c j with types := (m.moved c j).types.register (.ofDecl d) } : Machine) =
      m₀.moved c j := by
    rw [← hm₀]
    rfl
  rw [hstart]
  generalize d.methods = qs
  clear hm₀ hstart
  induction qs generalizing m₀ with
  | nil => rfl
  | cons q qs ih =>
    rw [List.foldl_cons, List.foldl_cons, loadProcedure_moved]
    exact ih _

theorem loadStmt_moved (s : Stmt) : (m.moved c j).loadStmt s = (m.loadStmt s).moved c j := by
  cases s with
  | procedure q => exact loadProcedure_moved m c j _ q
  | typeBlock d => exact loadType_moved m c j d
  | _ => rfl

/-- What a program loads has nothing to do with them. -/
theorem load_moved (p : Program) : (m.moved c j).load p = (m.load p).moved c j := by
  obtain ⟨statements⟩ := p
  unfold load
  dsimp only
  induction statements generalizing m with
  | nil => rfl
  | cons s rest ih =>
    rw [List.foldl_cons, List.foldl_cons, loadStmt_moved]
    exact ih _

end Machine

/-! ## The relations -/

/-- How two runs correspond to each other. -/
structure Simulation where
  /-- The rule that all code obeys. -/
  rule : Rule
  chain : Chain → Chain → Prop
  journal : Journal → Journal → Prop
  /-- The failures that only the first run has. -/
  extra : Failure → Prop := fun _ => False

/-- A journal with a note, if there are notes. -/
def Journal.noted (j : Journal) (debug : Bool) (text : String) : Journal :=
  if debug then j ++ [Event.diagnosed text] else j

namespace Simulation

/-- Two machines correspond to each other: they differ in scopes and journal only. -/
inductive Near (R : Simulation) (m : Machine) : Machine → Prop where
  | intro (c' : Chain) (j' : Journal) (obeys : m.Obeys R.rule) (chain : R.chain m.chain c')
    (journal : R.journal m.journal j') : Near R m (m.moved c' j')

/-- Something was done to scopes on both sides: with the same result and scopes that correspond to
each other, or with a failure that only the first side has. -/
inductive Agree (R : Simulation) : Except Failure α × Chain → Except Failure α × Chain → Prop where
  | same {r : Except Failure α} {c c' : Chain} (chain : R.chain c c') : Agree R (r, c) (r, c')
  | extra {e : Failure} {c c' : Chain} {r' : Except Failure α} (extra : R.extra e)
    (alone : R.chain c' c') : Agree R (.error e, c) (r', c')

/-- Something can be done to scopes on both sides. -/
def Carries (R : Simulation) (f : Chain → Except Failure α × Chain) : Prop :=
  ∀ {c c'}, R.chain c c' → R.Agree (f c) (f c')

/-- The two runs in lockstep, until the first one has one of its extra failures. -/
def lockstep (R : Simulation) : Lockstep where
  rule := R.rule
  near _ := R.Near
  step _ _ _ := True
  early h := ∃ e, h = .failed e ∧ R.extra e

/-- **What is to be checked** of two contexts and the relations between the runs in them. -/
structure Sound (cx cx' : Context) (R : Simulation) : Prop where
  host : cx'.host = cx.host
  maxElements : cx'.config.maxElements = cx.config.maxElements
  maxDepth : cx'.config.maxDepth = cx.config.maxDepth
  debugPrint : ∀ p, R.rule.allows p .debugPrint → cx'.config.debug = cx.config.debug
  uncaught : ∀ p x e, R.rule.allows p (.attempt x) → ¬ R.extra e := by
    intro p x e _ h; exact h
  -- Journals.
  log : ∀ {j j'} (events : List Event), R.journal j j' → R.journal (j ++ events) (j' ++ events)
  note : ∀ {j j'} text, R.journal j j' →
    R.journal (j.noted cx.config.debug text) (j'.noted cx'.config.debug text)
  journal_alone : ∀ {j j'}, R.journal j j' → R.journal j' j'
  -- What is seen of scopes.
  chain_alone : ∀ {c c'}, R.chain c c' → R.chain c' c'
  lookup? : ∀ {c c'}, R.chain c c' → c'.lookup? = c.lookup?
  isConst : ∀ {c c'}, R.chain c c' → c'.isConst = c.isConst
  snapshot : ∀ {c c'}, R.chain c c' → c'.snapshot = c.snapshot
  vars : ∀ {c c'}, R.chain c c' → c'.top.vars = c.top.vars
  get : ∀ name, R.Carries fun c => (c.get name, c)
  -- Writes.
  bind : ∀ {c c'} name v, R.chain c c' → R.chain (c.bind name v) (c'.bind name v)
  optionExplicit : ∀ {c c'} p, R.rule.allows p .optionExplicit → R.chain c c' →
    R.chain (c.modifyTop ({ · with strict := true })) (c'.modifyTop ({ · with strict := true }))
  addGlobal : ∀ {c c'} name, R.chain c c' → R.chain (c.addGlobal name) (c'.addGlobal name)
  define : ∀ name v, R.Carries fun c => (c.define name v).swap
  set : ∀ name v, R.Carries (Chain.tryWrite (·.set name v))
  defineLocal : ∀ name v, R.Carries (Chain.tryWrite (·.defineLocal name v))
  defineConst : ∀ name v, R.Carries (Chain.tryWrite (·.defineConst name v))
  -- Scopes are opened and closed.
  openBlock : ∀ {c c'}, R.chain c c' → R.chain (c.push c.newBlock) (c'.push c'.newBlock)
  openResource : ∀ {c c'} name v, R.chain c c' →
    R.chain (c.push (c.newBlock.bind name v)) (c'.push (c'.newBlock.bind name v))
  openFrame : ∀ {c c'}, R.chain c c' → R.chain (c.push c.newFrame) (c'.push c'.newFrame)
  close : ∀ {c c'}, R.chain c c' → R.chain c.pop c'.pop
  openLambda : ∀ {c c'} bindings, R.chain c c' →
    R.chain ⟨[({ strict := c.root.strict } : Scope).bindAll bindings], c.root⟩
      ⟨[({ strict := c'.root.strict } : Scope).bindAll bindings], c'.root⟩
  closeLambda : ∀ {c c' c₁ c₁'}, R.chain c c' → R.chain c₁ c₁' →
    R.chain ⟨c.inner, c₁.root⟩ ⟨c'.inner, c₁'.root⟩

/-! ## From scopes to computations -/

variable {R : Simulation} {cx cx' : Context} {l : Level} {m m' : Machine}

/-- A machine after a change that is the same on both sides. -/
theorem Near.change {c c' : Chain} {j j' : Journal} (obeys : m.Obeys R.rule)
    (chain : R.chain c c') (journal : R.journal j j') : R.Near (m.moved c j) (m.moved c' j') :=
  .intro (m := m.moved c j) c' j' ⟨obeys.subs, obeys.functions, obeys.lambdas⟩ chain journal

/-- All code that the first machine has loaded obeys the rule. -/
theorem Near.obeys (h : R.Near m m') : m.Obeys R.rule := by
  cases h with
  | intro c' j' obeys chain journal => exact obeys

/-- The scopes of the two machines correspond to each other. -/
theorem Near.chain (h : R.Near m m') : R.chain m.chain m'.chain := by
  cases h with
  | intro c' j' obeys chain journal => exact chain

/-- The journals of the two machines correspond to each other. -/
theorem Near.journal (h : R.Near m m') : R.journal m.journal m'.journal := by
  cases h with
  | intro c' j' obeys chain journal => exact journal

namespace Sound

variable (S : R.Sound cx cx')
include S

/-- The second machine corresponds to itself, so that the second run can go on alone. -/
theorem near_alone (h : R.Near m m') : R.Near m' m' := by
  cases h with
  | intro c' j' obeys chain journal =>
    exact Near.change obeys (S.chain_alone chain) (S.journal_alone journal)

/-- An evaluator cannot tell the two machines apart. -/
theorem alike (h : R.Near m m') : m.Alike m' := by
  cases h with
  | intro c' j' obeys chain journal =>
    exact ⟨rfl, rfl, rfl, rfl, rfl, S.lookup? chain, S.isConst chain, S.snapshot chain,
      S.vars chain⟩

/-- What is done to scopes on both sides. -/
theorem keeps_onChain {f : Chain → Except Failure α × Chain} (hf : R.Carries f) :
    R.lockstep.Keeps l (Run.onChain f) (Run.onChain f) := by
  intro m _ ⟨c', j', obeys, chain, journal⟩
  have agree := hf chain
  unfold Run.onChain
  dsimp only [Machine.moved]
  generalize f m.chain = r, f c' = r' at agree
  cases agree with
  | @same r c₁ c₁' chain =>
    have near : R.Near (m.moved c₁ m.journal) (m.moved c₁' j') := Near.change obeys chain journal
    cases r with
    | ok a => exact .ok trivial near trivial
    | error e => exact .error trivial near trivial
  | @extra e c₁ c₁' r' extra alone =>
    have near : R.Near (m.moved c₁' j') (m.moved c₁' j') :=
      Near.change obeys alone (S.journal_alone journal)
    refine .early ⟨e, rfl, extra⟩ trivial ?_
    cases r' with
    | ok a => exact .ok trivial near trivial
    | error e => exact .error trivial near trivial

omit S in
/-- What is done to scopes on both sides and cannot fail. -/
theorem keeps_modifyChain {f : Chain → Chain}
    (hf : ∀ {c c'}, R.chain c c' → R.chain (f c) (f c')) :
    R.lockstep.Keeps l (Run.modifyChain f) (Run.modifyChain f) := by
  intro m _ ⟨c', j', obeys, chain, journal⟩
  exact .ok trivial (Near.change obeys (hf chain) journal) trivial

omit S in
/-- What is loaded on both sides. -/
theorem keeps_load {f : Machine → Machine}
    (hmoved : ∀ (m : Machine) c j, f (m.moved c j) = (f m).moved c j)
    (hobeys : ∀ m : Machine, m.Obeys R.rule → (f m).Obeys R.rule) :
    R.lockstep.Keeps l (modify f) (modify f) := by
  intro m _ ⟨c', j', obeys, chain, journal⟩
  have hself : f m = (f m).moved m.chain m.journal := hmoved m m.chain m.journal
  have near : R.Near (f m) (f (m.moved c' j')) := by
    rw [hmoved, hself]
    exact Near.change (hobeys m obeys) chain journal
  exact .ok trivial near trivial

/-- The same events on both sides. -/
theorem keeps_log (events : List Event) :
    R.lockstep.Keeps l (Run.log events) (Run.log events) := by
  intro m _ ⟨c', j', obeys, chain, journal⟩
  exact .ok trivial (Near.change obeys chain (S.log events journal)) trivial

omit S in
/-- A note is an event that is there while debugging only. -/
theorem note_apply (debug : Bool) (text : String) (m : Machine) :
    (if debug then Run.note text else pure () : Run Unit) m =
      .ok () (m.moved m.chain (m.journal.noted debug text)) := by
  cases debug <;> rfl

/-- The same note on both sides, where the side that is debugging has one. -/
theorem keeps_note (text : String) :
    R.lockstep.Keeps l (if cx.config.debug then Run.note text else pure ())
      (if cx'.config.debug then Run.note text else pure ()) := by
  intro m _ ⟨c', j', obeys, chain, journal⟩
  rw [note_apply, note_apply]
  exact .ok trivial (Near.change obeys chain (S.note text journal)) trivial

omit S in
/-- A scope is opened on both sides and closed later. -/
theorem bracket {outer start last : Level} {enter : Machine → Machine}
    {leave : Machine → Machine → Machine} (hopen : R.Near (enter m) (enter m'))
    (hclose : ∀ {m₁ m₁'}, R.Near m₁ m₁' → R.Near (leave m m₁) (leave m' m₁')) :
    R.lockstep.Bracket outer start last enter leave m m' :=
  ⟨hopen, fun _ near => hclose near, fun _ => trivial, fun _ _ => trivial⟩

/-- **A sound simulation is a sound lockstep.** -/
theorem lockstep : R.lockstep.Sound cx cx' where
  host := S.host
  maxElements := S.maxElements
  maxDepth := S.maxDepth
  note := S.keeps_note
  debugPrint := S.debugPrint
  alike := S.alike
  obeys := Near.obeys
  refl := fun _ => trivial
  trans := fun _ _ => trivial
  near_expr := id
  near_of_expr := fun _ _ near => near
  step_of_expr := fun _ _ _ => trivial
  near_stmt := id
  step_stmt := id
  early_signal := by rintro f ⟨e, ⟨⟩, -⟩
  early_failed := by
    rintro p x e hp ⟨_, ⟨⟩, extra⟩
    exact S.uncaught p x e hp extra
  near_alone := fun _ near => S.near_alone near
  step_alone := fun _ _ _ => trivial
  readVar := fun name => by
    rw [Run.readVar_eq]
    exact (S.keeps_onChain (S.get name)).imp fun v _ => v.keyed_of_all fun _ => trivial
  log := S.keeps_log
  learn := fun label r hr =>
    keeps_load (fun m c j => m.learn_moved c j label r) fun _ hm => hm.learn label hr
  bindItem := fun name v _ _ => keeps_modifyChain (S.bind name v)
  bindEntry := fun name v _ _ => keeps_modifyChain (S.bind name v)
  optionExplicit := fun p hp => keeps_modifyChain (S.optionExplicit p hp)
  addGlobal := fun _ _ n _ _ => keeps_modifyChain (S.addGlobal n.name)
  define := fun name v _ _ => by
    rw [Run.define_eq]
    exact S.keeps_onChain (S.define name v)
  set := fun name v _ _ => by
    rw [Run.writeChain_eq]
    exact S.keeps_onChain (S.set name v)
  defineLocal := fun name v _ _ => by
    rw [Run.writeChain_eq]
    exact S.keeps_onChain (S.defineLocal name v)
  defineConst := fun name v _ _ => by
    rw [Run.writeChain_eq]
    exact S.keeps_onChain (S.defineConst name v)
  bindCaught := fun _ x e _ => keeps_modifyChain (S.bind x.name e.toValue)
  declareType := fun d hd => by
    refine keeps_load (fun m c j => ?_) fun m hm => ?_
    · show (if m.types.has d.name.name then _ else _) = _
      rw [m.loadType_moved]
      split <;> rfl
    · split
      · exact hm
      · exact hm.loadType hd
  block := by
    rintro m _ ⟨c', j', obeys, chain, journal⟩
    refine bracket (Near.change obeys (S.openBlock chain) journal) ?_
    rintro m₁ _ ⟨c₁', j₁', obeys, chain, journal⟩
    exact Near.change obeys (S.close chain) journal
  resource := by
    rintro m _ name v - - ⟨c', j', obeys, chain, journal⟩
    refine bracket (Near.change obeys (S.openResource name v chain) journal) ?_
    rintro m₁ _ ⟨c₁', j₁', obeys, chain, journal⟩
    exact Near.change obeys (S.close chain) journal
  frame := by
    rintro m _ ⟨c', j', obeys, chain, journal⟩ -
    refine bracket (Near.change (m := { m with depth := m.depth + 1 })
      ⟨obeys.subs, obeys.functions, obeys.lambdas⟩ (S.openFrame chain) journal) ?_
    rintro m₁ _ ⟨c₁', j₁', obeys, chain, journal⟩
    exact Near.change (m := { m₁ with depth := m₁.depth - 1 })
      ⟨obeys.subs, obeys.functions, obeys.lambdas⟩ (S.close chain) journal
  lambda := by
    rintro m _ bindings - ⟨c', j', obeys, chain, journal⟩ -
    refine bracket (Near.change (m := { m with depth := m.depth + 1 })
      ⟨obeys.subs, obeys.functions, obeys.lambdas⟩ (S.openLambda bindings chain) journal) ?_
    rintro m₁ _ ⟨c₁', j₁', obeys₁, chain₁, journal₁⟩
    exact Near.change (m := { m₁ with depth := m₁.depth - 1 })
      ⟨obeys₁.subs, obeys₁.functions, obeys₁.lambdas⟩ (S.closeLambda chain chain₁) journal₁

/-! ## Runs -/

/-- **Two runs of a program**, from machines that correspond to each other.  The first one has one
of its extra failures, or both have the same verdict and leave machines that correspond to each
other. -/
theorem run (fuel : Nat) (h : R.Near m m') (p : Program) (hp : R.rule.program p) :
    (∃ e m₁, m.run cx fuel p = (.failed e, m₁) ∧ R.extra e) ∨
      ((m'.run cx' fuel p).1 = (m.run cx fuel p).1 ∧
        R.Near (m.run cx fuel p).2 (m'.run cx' fuel p).2) := by
  obtain ⟨c', j', obeys, chain, journal⟩ := h
  obtain ⟨hadopted, hobeys⟩ := obeys.adopt hp
  -- Both sides load the same program with the same labels.
  have hloaded : (m.moved c' j').adopt p = ((m.adopt p).1, (m.adopt p).2.moved c' j') := rfl
  have near : R.Near ((m.adopt p).2.load (m.adopt p).1)
      (((m.adopt p).2.load (m.adopt p).1).moved c' j') := by
    have hself := (m.adopt p).2.load_moved m.chain m.journal (m.adopt p).1
    refine .intro c' j' hobeys ?_ ?_
    · have hchain : ((m.adopt p).2.load (m.adopt p).1).chain = m.chain := congrArg (·.chain) hself
      rw [hchain]
      exact chain
    · have hjournal : ((m.adopt p).2.load (m.adopt p).1).journal = m.journal :=
        congrArg (·.journal) hself
      rw [hjournal]
      exact journal
  have ends := (S.lockstep.engines fuel).topLevel S.lockstep (m.adopt p).1.statements hadopted
    _ _ near
  unfold Machine.run
  rw [hloaded]
  dsimp only
  rw [Machine.load_moved]
  unfold Run.verdict
  generalize (engine cx fuel).topLevel _ _ = r, (engine cx' fuel).topLevel _ _ = r' at ends
  cases ends with
  | ok _ near => exact .inr ⟨rfl, near⟩
  | @error halt _ _ _ near => cases halt <;> exact .inr ⟨rfl, near⟩
  | early early =>
    obtain ⟨e, rfl, extra⟩ := early
    exact .inl ⟨e, _, rfl, extra⟩

end Sound

end Simulation

end BasicScript
