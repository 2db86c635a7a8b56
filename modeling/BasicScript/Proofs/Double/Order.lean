import BasicScript.Value.Compare
import BasicScript.Proofs.Double.Bits

/-!
# The order of doubles

Two doubles compare unless one of them is `NaN`, and from the other side they compare the other way
around.

* `swap_compareFloat?`: the operands swapped.
* `compareFloat?_eq_none_iff`: which doubles do not compare.
-/

namespace BasicScript.Value

open Float.Model

/-! ## Signs, exponents and mantissas -/

/-- Of two magnitudes the exponents are compared first, and then the mantissas. -/
theorem swap_compareParts (m n : Nat) (e f : Int) :
    ((compare e f).then (compare m n)).swap = (compare f e).then (compare n m) := by
  rw [Ordering.swap_then, Int.compare_swap, Nat.compare_swap]

/-- Two unpacked doubles compare the other way round from the other side. -/
theorem swap_compare (a b : UnpackedFloat) : (a.compare b).map Ordering.swap = b.compare a := by
  cases a with
  | notANumber => cases b <;> rfl
  | infinity s =>
    cases b with
    | infinity t => cases s <;> cases t <;> rfl
    | _ => cases s <;> rfl
  | zero s =>
    cases b with
    | infinity t | finite t => cases t <;> rfl
    | _ => rfl
  | finite s m e _ =>
    cases b with
    | infinity t => cases s <;> cases t <;> rfl
    | finite t n f _ =>
      cases s with
      | positive =>
        cases t with
        | positive => exact congrArg some (swap_compareParts m n e f)
        | negative => rfl
      | negative =>
        cases t with
        | positive => rfl
        | negative => exact congrArg (fun o => some o.swap) (swap_compareParts m n e f)
    | _ => cases s <;> rfl

/-- Two unpacked doubles have an order unless one of them is NaN. -/
theorem compare_eq_none_iff (a b : UnpackedFloat) :
    a.compare b = none ↔ a.isNaN = true ∨ b.isNaN = true := by
  fun_cases UnpackedFloat.compare a b <;> simp_all [UnpackedFloat.isNaN]

/-! ## Doubles -/

/-- One double is less than another if they compare so unpacked. -/
theorem lt_iff_compare (x y : Float) :
    x < y ↔ x.toModel.unpack.compare y.toModel.unpack = some .lt :=
  (decide_eq_true_iff ..).trans beq_iff_eq

/-- Two doubles are equal if they compare so unpacked. -/
theorem beq_iff_compare (x y : Float) :
    (x == y) = true ↔ x.toModel.unpack.compare y.toModel.unpack = some .eq :=
  beq_iff_eq (a := x.toModel.unpack.compare y.toModel.unpack)

/-- Doubles are compared as they are unpacked. -/
theorem compareFloat?_eq (x y : Float) :
    compareFloat? x y = x.toModel.unpack.compare y.toModel.unpack := by
  unfold compareFloat?
  simp only [lt_iff_compare, beq_iff_compare, ← swap_compare x.toModel.unpack y.toModel.unpack]
  generalize x.toModel.unpack.compare y.toModel.unpack = o
  rcases o with _ | _ | _ | _ <;> rfl

/-- Two doubles compare the other way round from the other side. -/
theorem swap_compareFloat? (x y : Float) :
    (compareFloat? x y).map Ordering.swap = compareFloat? y x := by
  rw [compareFloat?_eq, compareFloat?_eq, swap_compare]

/-- Two doubles have an order unless one of them is NaN. -/
theorem compareFloat?_eq_none_iff (x y : Float) :
    compareFloat? x y = none ↔ x.isNaN = true ∨ y.isNaN = true := by
  rw [compareFloat?_eq]
  exact compare_eq_none_iff _ _

end BasicScript.Value
