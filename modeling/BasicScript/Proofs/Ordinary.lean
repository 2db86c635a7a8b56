import BasicScript.Machine.Statement

/-!
# Ordinary failures

Only the top level of a program may complain about a signal that nothing has taken up.  Every other
operation of the language fails with some *ordinary* failure, which is none of that kind.
-/

namespace BasicScript

/-- The failure is no complaint about a signal. -/
def Failure.Ordinary (e : Failure) : Prop :=
  e.kind ≠ .invalidControlFlow

/-- A computation that may only fail with ordinary failures. -/
def FailsOrdinarily {α : Type} (r : Except Failure α) : Prop :=
  ∀ e, r = .error e → e.Ordinary

namespace FailsOrdinarily

variable {α β : Type}

/-- What succeeds does not fail at all. -/
theorem ok (a : α) : FailsOrdinarily (.ok a) := by
  intro e h
  cases h

/-- An ordinary failure. -/
theorem error {e : Failure} (h : e.Ordinary) : FailsOrdinarily (.error e : Except Failure α) := by
  rintro _ ⟨⟩
  exact h

/-- Two steps fail ordinarily if each of them does. -/
theorem bind {r : Except Failure α} {f : α → Except Failure β} (hr : FailsOrdinarily r)
    (hf : ∀ a, FailsOrdinarily (f a)) : FailsOrdinarily (r >>= f) := by
  cases r with
  | error e => exact error (hr e rfl)
  | ok a => exact hf a

theorem map {r : Except Failure α} (f : α → β) (hr : FailsOrdinarily r) :
    FailsOrdinarily (r.map f) := by
  cases r with
  | error e => exact error (hr e rfl)
  | ok a => exact ok (f a)

end FailsOrdinarily

/-! ## Operations on values -/

namespace Value

open FailsOrdinarily

/-- A value that is no number is a type error. -/
theorem number_ordinary (v : Value) : FailsOrdinarily v.number := by
  unfold number
  split
  · exact ok _
  · exact error nofun

/-- A value that cannot be truncated is a type error. -/
theorem truncated_ordinary (v : Value) : FailsOrdinarily v.truncated := by
  cases v <;> first | exact ok _ | exact error nofun

/-- A unary operator fails over the type of its operand only. -/
theorem unary_ordinary (op : UnaryOp) (v : Value) : FailsOrdinarily (v.unary op) := by
  unfold unary
  split
  all_goals first | exact ok _ | exact error nofun | skip
  split <;> exact ok _

/-- Both operands are numbers, and then the result is there. -/
theorem inDoubles_ordinary (a b : Value) (f : Float → Float → Value) :
    FailsOrdinarily (do let x ← a.number; let y ← b.number; return f x y) :=
  bind a.number_ordinary fun _ => bind b.number_ordinary fun _ => ok _

/-- Arithmetic fails over the types of its operands only. -/
theorem arithmetic_ordinary (exact' : Int → Int → Int) (rounded : Float → Float → Float)
    (a b : Value) : FailsOrdinarily (arithmetic exact' rounded a b) := by
  unfold arithmetic
  dsimp only
  split
  · split
    · exact ok _
    · exact inDoubles_ordinary _ _ _
  · exact inDoubles_ordinary _ _ _

/-- **A binary operator fails ordinarily**, over a type or a divisor of zero. -/
theorem binary_ordinary (op : BinaryOp) (a b : Value) : FailsOrdinarily (a.binary op b) := by
  cases op with
  | add =>
    show FailsOrdinarily (add a b)
    unfold add
    split
    · exact ok _
    · exact ok _
    · exact arithmetic_ordinary _ _ _ _
  | sub => exact arithmetic_ordinary _ _ _ _
  | mul => exact arithmetic_ordinary _ _ _ _
  | div => exact inDoubles_ordinary a b fun x y => .float (x / y)
  | intDiv =>
    refine bind a.truncated_ordinary fun m => bind b.truncated_ordinary fun n => ?_
    split
    · exact error nofun
    · exact ok _
  | mod =>
    show FailsOrdinarily (mod a b)
    unfold mod
    split
    · split
      · exact error nofun
      · exact ok _
    · refine bind a.number_ordinary fun x => bind b.number_ordinary fun y => ?_
      split
      · exact error nofun
      · exact ok _
  | pow =>
    show FailsOrdinarily (pow a b)
    unfold pow
    dsimp only
    split
    · split
      · exact ok _
      · exact inDoubles_ordinary _ _ _
    · exact inDoubles_ordinary _ _ _
  | _ => exact ok _

/-- A range fails over its bounds or over its size. -/
theorem range_ordinary (first last : Value) (max : Nat) :
    FailsOrdinarily (first.range last max) := by
  unfold range
  split
  · split
    · exact ok _
    · exact error nofun
  · refine bind (truncated_ordinary _) fun a => bind (truncated_ordinary _) fun b => ?_
    dsimp only
    split
    · exact error nofun
    · exact ok _

/-- A write below a value fails over the size of an array only. -/
theorem writeAt_ordinary (max : Nat) (v : Value) (target : Value) (is : List Value) :
    FailsOrdinarily (writeAt max v target is) := by
  induction is generalizing target with
  | nil => exact ok _
  | cons i rest ih =>
    unfold writeAt
    split
    · exact bind (ih _) fun _ => ok _
    · split
      · exact ok _
      · dsimp only
        split
        · exact error nofun
        · exact bind (ih _) fun _ => ok _

end Value

/-! ## Operations on scopes -/

namespace Chain

open FailsOrdinarily

/-- A read fails over a name that was never declared only. -/
theorem get_ordinary (c : Chain) (name : String) : FailsOrdinarily (c.get name) := by
  unfold get
  split
  · exact ok _
  · split
    · exact error nofun
    · exact ok _

/-- A write to the root fails over a constant or an undeclared name only. -/
theorem setRoot_ordinary (root : Scope) (strict : Bool) (name : String) (v : Value) :
    FailsOrdinarily (setRoot root strict name v) := by
  unfold setRoot
  split
  · exact error nofun
  · split
    · exact error nofun
    · exact ok _

/-- An assignment fails over a constant or an undeclared name only. -/
theorem assignIn_ordinary (root : Scope) (name : String) (v : Value) (scopes : List Scope) :
    FailsOrdinarily (assignIn root name v scopes) := by
  induction scopes with
  | nil =>
    unfold assignIn
    split
    · exact map _ (setRoot_ordinary _ _ _ _)
    · exact ok _
  | cons s rest ih =>
    unfold assignIn
    split
    · exact map _ (setRoot_ordinary _ _ _ _)
    · split
      · exact ok _
      · exact map _ ih

/-- An assignment to a name in any scope fails ordinarily. -/
theorem set_ordinary (c : Chain) (name : String) (v : Value) : FailsOrdinarily (c.set name v) := by
  unfold set
  split
  · exact map _ (setRoot_ordinary _ _ _ _)
  · split
    · exact error nofun
    · split
      · exact error nofun
      · exact assignIn_ordinary _ _ _ _

/-- A definition fails ordinarily. -/
theorem define_ordinary (c : Chain) (name : String) (v : Value) :
    FailsOrdinarily (c.define name v).2 := by
  unfold define
  split
  · exact error nofun
  · split
    · dsimp only
      split
      · exact ok _
      · next e heq => exact error (setRoot_ordinary _ _ _ _ e heq)
    · exact ok _

/-- A LOCAL fails over a constant only. -/
theorem defineLocal_ordinary (c : Chain) (name : String) (v : Value) :
    FailsOrdinarily (c.defineLocal name v) := by
  unfold defineLocal
  split
  · exact error nofun
  · exact ok _

/-- A CONST fails over a name that is a constant of the scope already. -/
theorem defineConst_ordinary (c : Chain) (name : String) (v : Value) :
    FailsOrdinarily (c.defineConst name v) := by
  unfold defineConst
  split
  · exact error nofun
  · exact ok _

end Chain

end BasicScript
