import BasicScript.Config
import BasicScript.Flow
import BasicScript.Host.Basic
import BasicScript.Scope

/-!
# The machine

The state of an interpreter, and computations on it.  A computation ends with a result or it halts:
with a failure, which a program can catch; with a signal that a call inside an expression has raised
and that the statement around the expression takes up; or because its fuel is used up.  The state is
there afterwards in every case.

* `Machine` is the state, `Context` what stays the same during a run.
* `Run` is the type of computations.
* `Run.within` runs a computation inside a new scope, `Run.fromRoot` inside a frame that sees only
  the root, and `Run.called` counts a call.
-/

namespace BasicScript

/-- What stays the same during a run. -/
structure Context where
  host : Host := {}
  config : Config := {}

/-- A FUNCTION that has been loaded. -/
structure FunctionDecl where
  name : String
  result : Option String
  routine : Routine

/-- The state of an interpreter. -/
structure Machine where
  chain : Chain := {}
  subs : Table Routine := []
  functions : Table FunctionDecl := []
  types : TypeTable := []
  /-- The lambdas that have been evaluated, by their labels. -/
  lambdas : List (Nat × Routine) := []
  /-- How many calls are going on. -/
  depth : Nat := 0
  journal : Journal := #[]
  /-- The first label that no lambda has. -/
  nextLabel : Nat := 0

/-- Why a computation has no result. -/
inductive Halt where
  | failed (e : Failure)
  | signal (flow : Flow)
  | exhausted

/-- Computations on a machine. -/
abbrev Run := EStateM Halt Machine

/-- Computes a value on a stack of its own, so that deep recursion does not use up one stack. -/
def onFreshStack {α : Type} (f : Unit → α) : α :=
  (Task.spawn f .dedicated).get

@[simp]
theorem onFreshStack_eq {α : Type} (f : Unit → α) : onFreshStack f = f () := rfl

namespace Run

variable {α : Type}

/-- Fails. -/
def fail (e : Failure) : Run α :=
  throw (.failed e)

/-- The result or the failure of a pure computation. -/
def lift : Except Failure α → Run α
  | .ok a => pure a
  | .error e => fail e

/-- Looks at the scopes. -/
def withChain (f : Chain → α) : Run α :=
  return f (← get).chain

/-- Reads a variable. -/
def readVar (name : String) : Run Value := do
  lift ((← get).chain.get name)

/-- Changes the scopes. -/
def modifyChain (f : Chain → Chain) : Run Unit :=
  modify fun m => { m with chain := f m.chain }

/-- Changes the scopes by a write that leaves them alone when it fails. -/
def writeChain (f : Chain → Except Failure Chain) : Run Unit := do
  let chain ← lift (f (← get).chain)
  modifyChain fun _ => chain

/-- Declares a variable in the innermost scope. -/
def define (name : String) (v : Value) : Run Unit := do
  let (chain, result) := (← get).chain.define name v
  modifyChain fun _ => chain
  lift result

/-- Adds events to the journal. -/
def log (events : List Event) : Run Unit :=
  modify fun m => { m with journal := m.journal ++ events }

/-- Adds a note to the journal. -/
def note (text : String) : Run Unit :=
  log [.diagnosed text]

/-- The answer of a native. -/
def reply (r : Reply) : Run Value := do
  log r.events
  lift r.result

/-- Takes a signal as the way in which a statement ended. -/
def surface (x : Run Flow) : Run Flow := fun m =>
  match x m with
  | .error (.signal flow) m => .ok flow m
  | r => r

/-- Changes the machine after a computation, however it ended. -/
def andThen (x : Run α) (f : Machine → Machine) : Run α := fun m =>
  match x m with
  | .ok a m => .ok a (f m)
  | .error h m => .error h (f m)

/-- Runs a computation inside a new scope, which is closed afterwards. -/
def within (scope : Chain → Scope) (x : Run α) : Run α := do
  modifyChain fun c => c.push (scope c)
  x.andThen fun m => { m with chain := m.chain.pop }

/-- Runs a computation inside a frame that lies in the root and starts with some bindings.  The
scopes of the caller are out of sight and come back afterwards. -/
def fromRoot (bindings : Table Value) (x : Run α) : Run α := do
  let caller := (← get).chain.inner
  modifyChain fun c => ⟨[({ strict := c.root.strict } : Scope).bindAll bindings], c.root⟩
  x.andThen fun m => { m with chain := ⟨caller, m.chain.root⟩ }

/-- How many calls share a stack. -/
def callsPerStack : Nat := 64

/-- Runs a computation as one call more.  Calls may be nested up to a limit; they are spread over
several stacks. -/
def called (limit : Nat) (x : Run α) : Run α := do
  let depth := (← get).depth
  if limit ≤ depth then fail (.stackOverflow limit)
  else
    modify fun m => { m with depth := m.depth + 1 }
    let x : Run α := fun m =>
      if depth % callsPerStack = callsPerStack - 1 then onFreshStack fun _ => x m else x m
    x.andThen fun m => { m with depth := m.depth - 1 }

/-! ## One computation after the other -/

section Bind

variable {α β : Type} {x y : Run α} {f : α → Run β} {m m₁ : Machine}

theorem get_bind (f : Machine → Run α) (m : Machine) : (get >>= f) m = f m m := rfl

theorem bind_of_ok {a : α} (h : x m = .ok a m₁) : (x >>= f) m = f a m₁ := by
  show EStateM.bind x f m = _
  unfold EStateM.bind
  rw [h]

theorem bind_of_error {halt : Halt} (h : x m = .error halt m₁) :
    (x >>= f) m = .error halt m₁ := by
  show EStateM.bind x f m = _
  unfold EStateM.bind
  rw [h]

theorem bind_congr (h : x m = y m) : (x >>= f) m = (y >>= f) m := by
  show EStateM.bind x f m = EStateM.bind y f m
  unfold EStateM.bind
  rw [h]

end Bind

end Run

end BasicScript
