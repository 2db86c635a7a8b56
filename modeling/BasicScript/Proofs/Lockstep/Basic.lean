import BasicScript.Proofs.Keyed.Machine
import BasicScript.Proofs.Ordinary
import BasicScript.Proofs.Rule

/-!
# Two runs in lockstep

Many facts about the evaluator have one and the same proof: they hold of its few elementary actions,
and everything else is put together from those.  This file says what has to be checked of the
elementary actions, and how it is carried over to larger computations.

Two evaluators run the same code on two machines.  They may differ in the evaluator (one of them may
inspect what it does), in the context and in the machine, as long as the two stay *near* each other.
Of the first machine it is also recorded what a computation may have done to it, by a *step* from
the machine before to the machine after.  A fact about a single run compares the run with itself.

The first run may also end before the second one, in a way that nothing in it can stop.  Then the
second one goes on alone, and it is recorded what it does to the machine at which the first one has
ended.

The two runs have the same values, and it may be recorded which keys there are in them: whatever is
written to a scope or yielded has only keys that satisfy a condition, if the host sees to that too.

* `Lockstep` holds the two relations, the rule that the code obeys and the ways in which
  computations may end.
* `Lockstep.Rel`: two computations end in the same way, near each other and after a step, or the
  first one ends early.  `Lockstep.Yields` says that of computations of keyed values.
* `Lockstep.Admits` and `Lockstep.Sound` list what is to be checked: how computations end, and what
  the elementary actions do.
* `Sound.resume`, `Sound.bind`, `Rel.look`, `Sound.bracket` and the other rules put computations
  together.
-/

namespace BasicScript

/-- The parts of the evaluator by the scopes that they may write. -/
inductive Level where
  /-- Inside an expression: no scope that is open. -/
  | expr
  /-- Inside a comprehension: the block that has been opened for its variable. -/
  | item
  /-- While the parameters of a call are bound: the frame of the call. -/
  | entry
  /-- Inside a statement: all scopes up to the nearest frame. -/
  | stmt

/-- What an evaluator can see of two machines is the same. -/
structure Machine.Alike (m m' : Machine) : Prop where
  subs : m'.subs = m.subs
  functions : m'.functions = m.functions
  types : m'.types = m.types
  lambdas : m'.lambdas = m.lambdas
  depth : m'.depth = m.depth
  lookup? : m'.chain.lookup? = m.chain.lookup?
  isConst : m'.chain.isConst = m.chain.isConst
  snapshot : m'.chain.snapshot = m.chain.snapshot
  vars : m'.chain.top.vars = m.chain.top.vars

theorem Machine.Alike.refl (m : Machine) : m.Alike m :=
  ⟨rfl, rfl, rfl, rfl, rfl, rfl, rfl, rfl, rfl⟩

/-- The relations between two runs, and the ways in which they may end. -/
structure Lockstep where
  /-- The rule that all code obeys. -/
  rule : Rule
  /-- The two machines correspond to each other. -/
  near : Level → Machine → Machine → Prop
  /-- What a computation may do to the first machine. -/
  step : Level → Machine → Machine → Prop
  /-- How a statement at a place may end. -/
  flow : Place → Flow → Prop := fun _ _ => True
  /-- Why a computation may halt. -/
  halt : Halt → Prop := fun _ => True
  /-- Why the first run may halt while the second one goes on. -/
  early : Halt → Prop := fun _ => False
  /-- The keys that there are in values, and the names of variables. -/
  key : String → Prop := fun _ => True

namespace Lockstep

variable {α β : Type} (L : Lockstep)

/-- The second of two computations has ended, after the first one has ended early at the machine
`m`. -/
inductive EndsAlone (l : Level) (m : Machine) (Q : α → Prop) :
    EStateM.Result Halt Machine α → Prop where
  | ok {a : α} {m₁ : Machine} (result : Q a) (near : L.near l m₁ m₁) (step : L.step l m m₁) :
    EndsAlone l m Q (.ok a m₁)
  | error {h : Halt} {m₁ : Machine} (halts : L.halt h) (near : L.near l m₁ m₁)
    (step : L.step l m m₁) : EndsAlone l m Q (.error h m₁)

/-- Two computations, the first from the machine `m`, have ended: both in the same way, or the first
one early. -/
inductive Ends (l : Level) (m : Machine) (Q : α → Prop) :
    EStateM.Result Halt Machine α → EStateM.Result Halt Machine α → Prop where
  | ok {a : α} {m₁ m₁' : Machine} (result : Q a) (near : L.near l m₁ m₁') (step : L.step l m m₁) :
    Ends l m Q (.ok a m₁) (.ok a m₁')
  | error {h : Halt} {m₁ m₁' : Machine} (halts : L.halt h) (near : L.near l m₁ m₁')
    (step : L.step l m m₁) : Ends l m Q (.error h m₁) (.error h m₁')
  | early {h : Halt} {m₁ : Machine} {r' : EStateM.Result Halt Machine α} (early : L.early h)
    (step : L.step l m m₁) (later : L.EndsAlone l m₁ Q r') : Ends l m Q (.error h m₁) r'

/-- **Lockstep.**  From machines near each other two computations end in the same way, unless the
first one ends early. -/
def Rel (l : Level) (x x' : Run α) (Q : α → Prop) : Prop :=
  ∀ m m', L.near l m m' → L.Ends l m Q (x m) (x' m')

/-- Lockstep with nothing to say about the result. -/
abbrev Keeps (l : Level) (x x' : Run α) : Prop :=
  L.Rel l x x' fun _ => True

/-- Lockstep with a result that has good keys. -/
abbrev Yields (l : Level) (x x' : Run Value) : Prop :=
  L.Rel l x x' (Value.Keyed L.key)

/-- The machines `m` and `m'` may `enter` a scope and `leave` it: what happens inside, from the
level `start` on and at last at the level `last`, is outside a step of the level `outer`. -/
structure Bracket (outer start last : Level) (enter : Machine → Machine)
    (leave : Machine → Machine → Machine) (m m' : Machine) : Prop where
  enters : L.near start (enter m) (enter m')
  near : ∀ {m₁ m₁'}, L.step last (enter m) m₁ → L.near last m₁ m₁' →
    L.near outer (leave m m₁) (leave m' m₁')
  step : ∀ {m₁}, L.step last (enter m) m₁ → L.step outer m (leave m m₁)
  /-- The scope may be left earlier or later. -/
  later : ∀ {m₁ m₂}, L.step last (enter m) m₁ → L.step last m₁ m₂ →
    L.step outer (leave m m₁) (leave m m₂)

end Lockstep

/-! ## Scopes of calls -/

namespace Machine

/-- Opens a scope. -/
def opened (scope : Chain → Scope) (m : Machine) : Machine :=
  { m with chain := m.chain.push (scope m.chain) }

/-- Closes the innermost scope. -/
def closed (m : Machine) : Machine :=
  { m with chain := m.chain.pop }

/-- Opens the frame of a SUB or FUNCTION. -/
def enterFrame (m : Machine) : Machine :=
  { m with depth := m.depth + 1, chain := m.chain.push m.chain.newFrame }

/-- Closes the frame of a SUB or FUNCTION. -/
def leaveFrame (m : Machine) : Machine :=
  { m with depth := m.depth - 1, chain := m.chain.pop }

/-- Opens the frame of a lambda with some bindings. -/
def enterLambda (bindings : Table Value) (m : Machine) : Machine :=
  { m with
    depth := m.depth + 1
    chain := ⟨[({ strict := m.chain.root.strict } : Scope).bindAll bindings], m.chain.root⟩ }

/-- Closes the frame of a lambda; the scopes of its caller come back. -/
def leaveLambda (caller : Machine) (m : Machine) : Machine :=
  { m with depth := m.depth - 1, chain := ⟨caller.chain.inner, m.chain.root⟩ }

end Machine

namespace Run

variable {α : Type}

/-- A call is refused at the limit, and otherwise it is counted while it goes on. -/
theorem called_apply (limit : Nat) (x : Run α) (m : Machine) :
    Run.called limit x m =
      if limit ≤ m.depth then .error (.failed (.stackOverflow limit)) m
      else x.andThen (fun m => { m with depth := m.depth - 1 })
        { m with depth := m.depth + 1 } := by
  by_cases h : limit ≤ m.depth
  · rw [if_pos h]
    show (if limit ≤ m.depth then _ else _ : Run α) m = _
    rw [if_pos h]
    rfl
  · rw [if_neg h]
    show (if limit ≤ m.depth then _ else _ : Run α) m = _
    rw [if_neg h]
    show Run.andThen (fun m₁ => if m.depth % callsPerStack = callsPerStack - 1 then
      onFreshStack fun _ => x m₁ else x m₁) _ _ = _
    simp only [onFreshStack_eq, ite_self]

theorem andThen_andThen (x : Run α) (f g : Machine → Machine) :
    (x.andThen f).andThen g = x.andThen (g ∘ f) := by
  funext m
  unfold andThen
  cases x m <;> rfl

/-- A call in a frame inside the scopes of the caller. -/
theorem called_within (limit : Nat) (x : Run α) (m : Machine) :
    Run.called limit (Run.within Chain.newFrame x) m =
      if limit ≤ m.depth then .error (.failed (.stackOverflow limit)) m
      else x.andThen Machine.leaveFrame m.enterFrame := by
  rw [called_apply]
  exact congrArg (ite _ _) (congrFun (andThen_andThen x _ _) _)

/-- A call in a frame inside the root. -/
theorem called_fromRoot (limit : Nat) (bindings : Table Value) (x : Run α) (m : Machine) :
    Run.called limit (Run.fromRoot bindings x) m =
      if limit ≤ m.depth then .error (.failed (.stackOverflow limit)) m
      else x.andThen (Machine.leaveLambda m) (m.enterLambda bindings) := by
  rw [called_apply]
  exact congrArg (ite _ _) (congrFun (andThen_andThen x _ _) _)

end Run

/-! ## Computations on scopes -/

/-- The computation that does something to the scopes alone: a result or a failure, and the scopes
afterwards. -/
def Run.onChain {α : Type} (f : Chain → Except Failure α × Chain) : Run α := fun m =>
  match f m.chain with
  | (.ok a, c) => .ok a { m with chain := c }
  | (.error e, c) => .error (.failed e) { m with chain := c }

/-- A write as something that is done to the scopes: they stay when it fails. -/
def Chain.tryWrite (f : Chain → Except Failure Chain) (c : Chain) : Except Failure Unit × Chain :=
  match f c with
  | .ok c₁ => (.ok (), c₁)
  | .error e => (.error e, c)

namespace Run

/-- Reading a variable as an action on the scopes. -/
theorem readVar_eq (name : String) : readVar name = onChain fun c => (c.get name, c) := by
  funext m
  show lift (m.chain.get name) m = _
  unfold onChain
  dsimp only
  cases m.chain.get name <;> rfl

theorem modifyChain_eq (f : Chain → Chain) : modifyChain f = onChain fun c => (.ok (), f c) :=
  rfl

/-- A write that may fail as an action on the scopes. -/
theorem writeChain_eq (f : Chain → Except Failure Chain) :
    writeChain f = onChain (Chain.tryWrite f) := by
  funext m
  show (lift (f m.chain) >>= fun c => modifyChain fun _ => c) m = _
  unfold onChain Chain.tryWrite
  cases f m.chain <;> rfl

/-- A definition as an action on the scopes, which it changes even where it fails. -/
theorem define_eq (name : String) (v : Value) :
    define name v = onChain fun c => (c.define name v).swap := by
  funext m
  show (modifyChain (fun _ => (m.chain.define name v).1) >>= fun _ =>
    lift (m.chain.define name v).2) m = _
  unfold onChain
  dsimp only
  rcases m.chain.define name v with ⟨c, _ | _⟩ <;> rfl

end Run

/-! ## What is to be checked -/

namespace Lockstep

/-- The ways in which statements and computations may end fit together in a context. -/
structure Admits (cx : Context) (L : Lockstep) : Prop where
  flow_normal : ∀ p, L.flow p .normal := by intros; trivial
  flow_returned : ∀ p v, v.Keyed L.key → L.flow p (.returned v) := by intros; trivial
  flow_keyed : ∀ p v, L.flow p (.returned v) → v.Keyed L.key := by
    intro p v _; exact v.keyed_of_all fun _ => trivial
  flow_broke : ∀ p, L.rule.allows p .breakLoop → L.flow p .broke := by intros; trivial
  flow_continued : ∀ p, L.rule.allows p .continueLoop → L.flow p .continued := by intros; trivial
  flow_exited : ∀ p t, L.rule.allows p (.exit t) → L.flow p (.exited t) := by intros; trivial
  flow_signal : ∀ p f, L.halt (.signal f) → L.flow p f := by intros; trivial
  flow_loop : ∀ p t f f', L.flow (p.inside t) f → f.stepOf t = .propagate f' → L.flow p f' := by
    intros; trivial
  flow_sub : ∀ f, L.flow ⟨.sub, []⟩ f →
    (f = .normal ∨ (∃ v, f = .returned v) ∨ f = .exited .sub) ∨ L.halt (.signal f) := by
    intros; exact Or.inr trivial
  flow_function : ∀ f, L.flow ⟨.function, []⟩ f →
    (f = .normal ∨ (∃ v, f = .returned v) ∨ f = .exited .function) ∨ L.halt (.signal f) := by
    intros; exact Or.inr trivial
  flow_main : ∀ f, L.flow ⟨.main, []⟩ f →
    (f = .normal ∨ (∃ v, f = .returned v) ∨ ∃ t, f = .exited t) ∨
      L.halt (.failed (.invalidControlFlow f.word)) := by
    intros; exact Or.inr trivial
  halt_failed : ∀ e, e.Ordinary → L.halt (.failed e) := by intros; trivial
  halt_exhausted : L.halt .exhausted := by trivial
  halt_native : ∀ name args e, (cx.host.natives.call name args).result = .error e →
    L.halt (.failed e) := by intros; trivial

/-- **The elementary actions.**  Two contexts and the relations between the runs in them fit
together. -/
structure Sound (cx cx' : Context) (L : Lockstep) : Prop extends Admits cx L where
  host : cx'.host = cx.host
  maxElements : cx'.config.maxElements = cx.config.maxElements
  maxDepth : cx'.config.maxDepth = cx.config.maxDepth
  /-- A note for the developer may be missing on one side, but not what DEBUGPRINT evaluates. -/
  note : ∀ text, L.Keeps .expr (if cx.config.debug then Run.note text else pure ())
    (if cx'.config.debug then Run.note text else pure ())
  debugPrint : ∀ p, L.rule.allows p .debugPrint → cx'.config.debug = cx.config.debug
  -- Keys.
  key_normal : ∀ s, L.key (Value.normalizeKey s) := by intro s; trivial
  host_keyed : cx.host.Keyed L.key := by exact .of_all (fun _ => trivial) _
  keyed : ∀ {l m m'}, L.near l m m' → m.Keyed L.key := by
    intro l m m' _; exact .of_all (fun _ => trivial) m
  -- The two relations.
  alike : ∀ {l m m'}, L.near l m m' → m.Alike m'
  obeys : ∀ {l m m'}, L.near l m m' → m.Obeys L.rule
  refl : ∀ {l m m'}, L.near l m m' → L.step l m m
  trans : ∀ {l m₁ m₂ m₃}, L.step l m₁ m₂ → L.step l m₂ m₃ → L.step l m₁ m₃
  near_expr : ∀ {l m m'}, L.near l m m' → L.near .expr m m'
  near_of_expr : ∀ {l m m' m₁ m₁'}, L.near l m m' → L.step .expr m m₁ → L.near .expr m₁ m₁' →
    L.near l m₁ m₁'
  step_of_expr : ∀ {l m m' m₁ m₂}, L.near l m m' → L.step .expr m m₁ → L.step .expr m₁ m₂ →
    L.step l m₁ m₂
  near_stmt : ∀ {m m'}, L.near .entry m m' → L.near .stmt m m'
  step_stmt : ∀ {m m₁}, L.step .entry m m₁ → L.step .stmt m m₁
  -- The first run ends early only if nothing can stop that, and then the second one is on its own.
  early_signal : ∀ f, ¬ L.early (.signal f) := by intro f h; exact h
  early_failed : ∀ p x e, L.rule.allows p (.attempt x) → ¬ L.early (.failed e) := by
    intro p x e _ h; exact h
  near_alone : ∀ {h l m m'}, L.early h → L.near l m m' → L.near l m' m' := by
    intro h l m m' early; exact early.elim
  step_alone : ∀ {h l n m m'}, L.early h → L.near l m m' → L.step l n m → L.step l n m' := by
    intro h l n m m' early; exact early.elim
  -- Actions inside expressions.
  readVar : ∀ name, L.Yields .expr (Run.readVar name) (Run.readVar name)
  log : ∀ events, L.Keeps .expr (Run.log events) (Run.log events)
  learn : ∀ label r, L.rule.routine .function r →
    L.Keeps .expr (modify (·.learn label r)) (modify (·.learn label r))
  -- Filling a scope that has just been opened.
  bindItem : ∀ name v, L.key name → v.Keyed L.key →
    L.Keeps .item (Run.modifyChain (·.bind name v)) (Run.modifyChain (·.bind name v))
  bindEntry : ∀ name v, L.key name → v.Keyed L.key →
    L.Keeps .entry (Run.modifyChain (·.bind name v)) (Run.modifyChain (·.bind name v))
  -- Actions of statements.
  optionExplicit : ∀ p, L.rule.allows p .optionExplicit →
    L.Keeps .stmt (Run.modifyChain (·.modifyTop ({ · with strict := true })))
      (Run.modifyChain (·.modifyTop ({ · with strict := true })))
  addGlobal : ∀ p names n, L.rule.allows p (.globals names) → n ∈ names →
    L.Keeps .stmt (Run.modifyChain (·.addGlobal n.name)) (Run.modifyChain (·.addGlobal n.name))
  define : ∀ name v, L.key name → v.Keyed L.key →
    L.Keeps .stmt (Run.define name v) (Run.define name v)
  set : ∀ name v, L.key name → v.Keyed L.key →
    L.Keeps .stmt (Run.writeChain (·.set name v)) (Run.writeChain (·.set name v))
  defineLocal : ∀ name v, L.key name → v.Keyed L.key →
    L.Keeps .stmt (Run.writeChain (·.defineLocal name v)) (Run.writeChain (·.defineLocal name v))
  defineConst : ∀ name v, L.key name → v.Keyed L.key →
    L.Keeps .stmt (Run.writeChain (·.defineConst name v)) (Run.writeChain (·.defineConst name v))
  bindCaught : ∀ p x e, L.rule.allows p (.attempt (some x)) →
    L.Keeps .stmt (Run.modifyChain (·.bind x.name (Failure.toValue e)))
      (Run.modifyChain (·.bind x.name (Failure.toValue e)))
  declareType : ∀ d, L.rule.typeDecl d → L.Keeps .stmt (declareType d) (declareType d)
  -- Scopes.
  block : ∀ {m m'}, L.near .expr m m' →
    L.Bracket .expr .item .item (Machine.opened Chain.newBlock) (fun _ => Machine.closed) m m'
  resource : ∀ {m m'} name v, L.key name → v.Keyed L.key → L.near .stmt m m' →
    L.Bracket .stmt .stmt .stmt (Machine.opened fun c => c.newBlock.bind name v)
      (fun _ => Machine.closed) m m'
  frame : ∀ {m m'}, L.near .expr m m' → m.depth < cx.config.maxDepth →
    L.Bracket .expr .entry .stmt Machine.enterFrame (fun _ => Machine.leaveFrame) m m'
  lambda : ∀ {m m'} bindings, Table.Keyed L.key bindings → L.near .expr m m' →
    m.depth < cx.config.maxDepth →
    L.Bracket .expr .entry .stmt (Machine.enterLambda bindings) Machine.leaveLambda m m'

/-! ## Putting computations together -/

variable {α β : Type} {L : Lockstep}

/-- What comes after a computation, be it that it has ended with a result or halted. -/
def resume (f : α → Run β) (k : Halt → Run β) :
    EStateM.Result Halt Machine α → EStateM.Result Halt Machine β
  | .ok a m => f a m
  | .error h m => k h m

/-- One computation after another is going on after a result, and halting after a halt. -/
theorem bind_apply (x : Run α) (f : α → Run β) (m : Machine) :
    (x >>= f) m = resume f throw (x m) := by
  show EStateM.bind x f m = _
  unfold EStateM.bind
  cases x m <;> rfl

variable {cx cx' : Context} {l l' : Level} {x x' : Run α} {Q R : α → Prop}

/-- The same with less to say about the result. -/
theorem Rel.imp (h : L.Rel l x x' Q) (hR : ∀ a, Q a → R a) : L.Rel l x x' R := by
  intro m m' hm
  have ends := h m m' hm
  generalize x m = r, x' m' = r' at ends
  cases ends with
  | ok result near step => exact .ok (hR _ result) near step
  | error halts near step => exact .error halts near step
  | early early step later =>
    refine .early early step ?_
    cases later with
    | ok result near step => exact .ok (hR _ result) near step
    | error halts near step => exact .error halts near step

/-- A computation that looks at the machine first. -/
theorem Rel.look {f f' : Machine → Run α}
    (h : ∀ m m', L.near l m m' → L.Rel l (f m) (f' m') Q) :
    L.Rel l (get >>= f) (get >>= f') Q :=
  fun m m' hm => h m m' hm m m' hm

namespace Sound

variable (S : L.Sound cx cx')
include S

/-- A value that both sides yield at once. -/
theorem pure {a : α} (ha : Q a) : L.Rel l (pure a) (pure a) Q :=
  fun _ _ hm => .ok ha hm (S.refl hm)

/-- Nothing is done on both sides. -/
theorem skip (a : α) : L.Keeps l (Pure.pure a) (Pure.pure a) :=
  S.pure trivial

/-- Both sides halt in a way that is admitted. -/
theorem halt {h : Halt} (hh : L.halt h) : L.Rel l (throw h : Run α) (throw h) Q :=
  fun _ _ hm => .error hh hm (S.refl hm)

/-! ### One computation after the other -/

section Resume

variable {m n : Machine} {r r' : EStateM.Result Halt Machine α}

/-- The same end seen from a machine before. -/
theorem endsAfter (hstep : L.step l n m) (h : L.Ends l m Q r r') : L.Ends l n Q r r' := by
  cases h with
  | ok result near step => exact .ok result near (S.trans hstep step)
  | error halts near step => exact .error halts near (S.trans hstep step)
  | early early step later => exact .early early (S.trans hstep step) later

/-- What is recorded of a run that goes on alone starts from an earlier machine. -/
theorem endsAloneAfter (hstep : L.step l n m) (h : L.EndsAlone l m Q r') :
    L.EndsAlone l n Q r' := by
  cases h with
  | ok result near step => exact .ok result near (S.trans hstep step)
  | error halts near step => exact .error halts near (S.trans hstep step)

/-- The second of two computations when it is on its own. -/
theorem endsAlone {h : Halt} (early : L.early h) (hx : L.Rel l x x' Q) (hm : L.near l m m) :
    L.EndsAlone l m Q (x' m) := by
  have ends := hx m m hm
  generalize x m = r, x' m = r' at ends
  cases ends with
  | ok result near step =>
    exact .ok result (S.near_alone early near) (S.step_alone early near step)
  | error halts near step =>
    exact .error halts (S.near_alone early near) (S.step_alone early near step)
  | early _ step later => exact S.endsAloneAfter step later

/-- The first run ends early at once, and the second one goes on. -/
theorem halt_early {h : Halt} (early : L.early h) (hx : L.Rel l x x' Q) :
    L.Rel l (throw h) x' Q := by
  intro m m' hm
  have later := S.endsAlone early hx (S.near_alone early hm)
  exact .early early (S.refl hm) (S.endsAloneAfter (S.step_alone early hm (S.refl hm)) later)

/-- **One computation after the other**, also after one that has halted.  Nothing comes after a
computation that has ended early. -/
theorem resume {f f' : α → Run β} {k k' : Halt → Run β} {R : β → Prop} (h : L.Ends l m Q r r')
    (hf : ∀ a, Q a → L.Rel l (f a) (f' a) R) (hk : ∀ h, L.halt h → L.Rel l (k h) (k' h) R)
    (hearly : ∀ h, L.early h → k h = throw h) :
    L.Ends l m R (Lockstep.resume f k r) (Lockstep.resume f' k' r') := by
  cases h with
  | ok result near step => exact S.endsAfter step (hf _ result _ _ near)
  | error halts near step => exact S.endsAfter step (hk _ halts _ _ near)
  | @early halt m₁ r' early step later =>
    -- Here the second run goes on, and the first one does not.
    have stays : Lockstep.resume f k (.error halt m₁) = .error halt m₁ :=
      congrFun (hearly halt early) m₁
    rw [stays]
    refine .early early step ?_
    cases later with
    | ok result near step' =>
      exact S.endsAloneAfter step' (S.endsAlone early (hf _ result) near)
    | error halts near step' =>
      exact S.endsAloneAfter step' (S.endsAlone early (hk _ halts) near)

/-- The same end seen at another level. -/
theorem endsAt {m' : Machine} (hm : L.near l m m')
    (hnear : ∀ {m₁ m₁'}, L.step l m m₁ → L.near l m₁ m₁' → L.near l' m₁ m₁')
    (hstep : ∀ {m₁ m₂}, L.step l m m₁ → L.step l m₁ m₂ → L.step l' m₁ m₂)
    (h : L.Ends l m Q r r') : L.Ends l' m Q r r' := by
  have hstart := S.refl hm
  cases h with
  | ok result near step => exact .ok result (hnear step near) (hstep hstart step)
  | error halts near step => exact .error halts (hnear step near) (hstep hstart step)
  | early early step later =>
    refine .early early (hstep hstart step) ?_
    cases later with
    | ok result near step' =>
      exact .ok result (hnear (S.trans step step') near) (hstep step step')
    | error halts near step' =>
      exact .error halts (hnear (S.trans step step') near) (hstep step step')

end Resume

/-- **One computation after another.** -/
theorem bind {f f' : α → Run β} {R : β → Prop} (hx : L.Rel l x x' Q)
    (hf : ∀ a, Q a → L.Rel l (f a) (f' a) R) : L.Rel l (x >>= f) (x' >>= f') R := by
  intro m m' hm
  rw [bind_apply, bind_apply]
  exact S.resume (hx m m' hm) hf (fun _ => S.halt) fun _ _ => rfl

/-- Both sides fail, in a way that no machine has a say in. -/
theorem fail {e : Failure} (he : e.Ordinary) : L.Rel l (Run.fail e : Run α) (Run.fail e) Q :=
  S.halt (S.halt_failed e he)

/-- Both sides have the same result. -/
theorem lift {r : Except Failure α} (hr : FailsOrdinarily r) (hQ : Gives Q r) :
    L.Rel l (Run.lift r) (Run.lift r) Q := by
  cases r with
  | ok a => exact S.pure (hQ a rfl)
  | error e => exact S.fail (hr e rfl)

/-- What is seen of the scopes is the same on both sides. -/
theorem withChain {f : Chain → α} (h : ∀ m m' : Machine, m.Alike m' → f m'.chain = f m.chain)
    (hQ : ∀ c : Chain, c.Keyed L.key → Q (f c)) :
    L.Rel l (Run.withChain f) (Run.withChain f) Q := by
  refine Rel.look fun m m' hm => ?_
  rw [h m m' (S.alike hm)]
  exact S.pure (hQ m.chain (S.keyed hm).chain)

/-- Names may be keys. -/
theorem key_name (x : Ident) : L.key x.name :=
  x.key_name S.key_normal

/-- What happens inside an expression may happen everywhere. -/
theorem ofExpr (h : L.Rel .expr x x' Q) : L.Rel l x x' Q :=
  fun m m' hm => S.endsAt (S.near_expr hm) (S.near_of_expr hm) (S.step_of_expr hm)
    (h m m' (S.near_expr hm))

/-- Changing the scopes entry by entry. -/
theorem foldChain {γ : Type} {f : Chain → γ → Chain} {xs : List γ}
    (h : ∀ a ∈ xs, L.Keeps l (Run.modifyChain (f · a)) (Run.modifyChain (f · a))) :
    L.Keeps l (Run.modifyChain (xs.foldl f)) (Run.modifyChain (xs.foldl f)) := by
  induction xs with
  | nil => exact S.skip ()
  | cons a xs ih =>
    exact S.bind (h a List.mem_cons_self) fun _ _ =>
      ih fun b hb => h b (List.mem_cons_of_mem a hb)

end Sound

/-! ## Computations inside a scope -/

/-- A computation inside a scope, with the changes around it. -/
theorem Sound.bracket (S : L.Sound cx cx') {outer start last : Level} {enter : Machine → Machine}
    {leave : Machine → Machine → Machine} {m m' : Machine}
    (B : L.Bracket outer start last enter leave m m')
    (h : L.Ends last (enter m) Q (x (enter m)) (x' (enter m'))) :
    L.Ends outer m Q (x.andThen (leave m) (enter m)) (x'.andThen (leave m') (enter m')) := by
  unfold Run.andThen
  generalize x (enter m) = r, x' (enter m') = r' at h
  cases h with
  | ok result near step => exact .ok result (B.near step near) (B.step step)
  | error halts near step => exact .error halts (B.near step near) (B.step step)
  | early early step later =>
    refine .early early (B.step step) ?_
    cases later with
    | ok result near step' =>
      have left := B.near (S.trans step step') near
      exact .ok result (S.near_alone early left) (S.step_alone early left (B.later step step'))
    | error halts near step' =>
      have left := B.near (S.trans step step') near
      exact .error halts (S.near_alone early left) (S.step_alone early left (B.later step step'))

/-- A computation that begins in a frame whose parameters are not bound yet. -/
def Starts (L : Lockstep) (x x' : Run α) (Q : α → Prop) : Prop :=
  ∀ m m', L.near .entry m m' → L.Ends .stmt m Q (x m) (x' m')

namespace Sound

variable (S : L.Sound cx cx')
include S

/-- Parameters are bound, and then statements run. -/
theorem starts {f f' : α → Run β} {R : β → Prop} (hx : L.Rel .entry x x' Q)
    (hf : ∀ a, Q a → L.Rel .stmt (f a) (f' a) R) : L.Starts (x >>= f) (x' >>= f') R := by
  intro m m' hm
  have bound : L.Ends .stmt m Q (x m) (x' m') :=
    S.endsAt hm (fun _ => S.near_stmt) (fun _ => S.step_stmt) (hx m m' hm)
  rw [bind_apply, bind_apply]
  exact S.resume bound hf (fun _ => S.halt) fun _ _ => rfl

/-- The block of a comprehension. -/
theorem inBlock (h : L.Rel .item x x' Q) :
    L.Rel .expr (Run.within Chain.newBlock x) (Run.within Chain.newBlock x') Q :=
  fun _ _ hm => S.bracket (S.block hm) (h _ _ (S.block hm).enters)

/-- The block of a USING statement. -/
theorem inResource {name : String} {v : Value} (hname : L.key name) (hv : v.Keyed L.key)
    (h : L.Rel .stmt x x' Q) :
    L.Rel .stmt (Run.within (fun c => c.newBlock.bind name v) x)
      (Run.within (fun c => c.newBlock.bind name v) x') Q := by
  intro m m' hm
  have B := S.resource name v hname hv hm
  exact S.bracket B (h _ _ B.enters)

/-- The frame of a SUB or FUNCTION. -/
theorem inFrame (h : L.Starts x x' Q) :
    L.Rel .expr (Run.called cx.config.maxDepth (Run.within Chain.newFrame x))
      (Run.called cx'.config.maxDepth (Run.within Chain.newFrame x')) Q := by
  intro m m' hm
  rw [S.maxDepth, Run.called_within, Run.called_within, (S.alike hm).depth]
  split
  · exact .error (S.halt_failed _ nofun) hm (S.refl hm)
  · have B := S.frame hm (by omega)
    exact S.bracket B (h _ _ B.enters)

/-- The frame of a lambda. -/
theorem inLambda {bindings : Table Value} (hbindings : Table.Keyed L.key bindings)
    (h : L.Starts x x' Q) :
    L.Rel .expr (Run.called cx.config.maxDepth (Run.fromRoot bindings x))
      (Run.called cx'.config.maxDepth (Run.fromRoot bindings x')) Q := by
  intro m m' hm
  rw [S.maxDepth, Run.called_fromRoot, Run.called_fromRoot, (S.alike hm).depth]
  split
  · exact .error (S.halt_failed _ nofun) hm (S.refl hm)
  · have B := S.lambda bindings hbindings hm (by omega)
    exact S.bracket B (h _ _ B.enters)

end Sound

end Lockstep

end BasicScript
