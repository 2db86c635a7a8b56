import BasicScript.Machine.Statement
import BasicScript.Syntax.Label

/-!
# The interpreter

The evaluator with fuel: each level of an expression, statement or loop uses one unit, and with no
fuel left a computation ends as `exhausted`.  A program may run for ever, so no amount of fuel is
enough for all of them; a finished answer does not depend on how much there was.

* `eval` and `exec` tie the levels together.
* `run`, `evaluate`, `call` and `callValue` are what a host does with a machine; they end with a
  `Verdict`, in which no signal is left.
-/

namespace BasicScript

mutual

/-- The value of an expression. -/
def eval (cx : Context) : Nat → Expr → Run Value
  | 0, _ => throw .exhausted
  | fuel + 1, e => evalStep cx ⟨fuel, eval cx fuel, exec cx fuel⟩ e

/-- How a statement ends.  Signals from expressions inside it are taken as the way in which it
ended. -/
def exec (cx : Context) : Nat → Stmt → Run Flow
  | 0, _ => throw .exhausted
  | fuel + 1, s => Run.surface (execStep cx ⟨fuel, eval cx fuel, exec cx fuel⟩ s)

end

/-- The evaluator with some fuel. -/
def engine (cx : Context) (fuel : Nat) : Engine :=
  ⟨fuel, eval cx fuel, exec cx fuel⟩

/-- How a run ended. -/
inductive Verdict (α : Type) where
  | done (a : α)
  | failed (e : Failure)
  | exhausted

/-- The word for a flow that nothing has taken up. -/
def Flow.word : Flow → String
  | .continued => "CONTINUE"
  | .exited _ => "EXIT"
  | _ => "BREAK"

/-- A computation that ends the run of a host: a RETURN yields its value, and any other signal that
is left is a failure. -/
def settle (x : Run Value) : Run Value := fun m =>
  match x m with
  | .error (.signal (.returned v)) m => .ok v m
  | .error (.signal flow) m => .error (.failed (.invalidControlFlow flow.word)) m
  | r => r

/-- The verdict on a computation and the machine after it. -/
def Run.verdict {α : Type} (x : Run α) (m : Machine) : Verdict α × Machine :=
  match x m with
  | .ok a m => (.done a, m)
  | .error (.failed e) m => (.failed e, m)
  | .error (.signal flow) m => (.failed (.invalidControlFlow flow.word), m)
  | .error .exhausted m => (.exhausted, m)

namespace Engine

/-- Runs the statements at the top level of a program.  RETURN and EXIT end the program there. -/
def topLevel (g : Engine) : List Stmt → Run Unit
  | [] => return ()
  | s :: rest => do
    match ← g.exec s with
    | .normal => g.topLevel rest
    | .returned _ | .exited _ => return ()
    | flow => Run.fail (.invalidControlFlow flow.word)

end Engine

namespace Machine

/-- A new machine. -/
def start (config : Config) : Machine :=
  { chain := { root := { strict := config.strict } } }

/-- Gives the lambdas of a program labels of their own. -/
def adopt (m : Machine) (p : Program) : Program × Machine :=
  let (p, n) := p.relabel m.nextLabel
  (p, { m with nextLabel := n })

/-- Loads the declarations of a program. -/
def loadProgram (m : Machine) (p : Program) : Machine :=
  let (p, m) := m.adopt p
  m.load p

/-- Loads a program and runs it. -/
def run (cx : Context) (fuel : Nat) (m : Machine) (p : Program) : Verdict Unit × Machine :=
  let (p, m) := m.adopt p
  ((engine cx fuel).topLevel p.statements).verdict (m.load p)

/-- Runs a program for its exit code; a failure is noted. -/
def interpret (cx : Context) (fuel : Nat) (m : Machine) (p : Program) : Verdict Nat × Machine :=
  match m.run cx fuel p with
  | (.done (), m) => (.done 0, m)
  | (.failed e, m) =>
    let note := "Runtime exception: " ++ e.message
    (.done 1, { m with journal := m.journal.push (.diagnosed note) })
  | (.exhausted, m) => (.exhausted, m)

/-- Evaluates an expression in the root. -/
def evaluate (cx : Context) (fuel : Nat) (m : Machine) (e : Expr) : Verdict Value × Machine :=
  let (e, n) := e.relabel m.nextLabel
  (settle (eval cx fuel e)).verdict { m with nextLabel := n }

/-- Calls what a name in any case stands for. -/
def call (cx : Context) (fuel : Nat) (m : Machine) (name : String) (args : List Value) :
    Verdict Value × Machine :=
  (settle ((engine cx fuel).dispatch cx (Text.upper name) args [])).verdict m

/-- Calls a lambda or a method object. -/
def callValue (cx : Context) (fuel : Nat) (m : Machine) (callee : Value) (args : List Value) :
    Verdict Value × Machine :=
  (settle ((engine cx fuel).invoke cx callee args)).verdict m

/-- The value of a variable of the root, by a name in any case. -/
def global? (m : Machine) (name : String) : Option Value :=
  m.chain.lookup? (Text.upper name)

end Machine

end BasicScript
