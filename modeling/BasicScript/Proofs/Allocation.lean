import BasicScript.Machine.Statement
import BasicScript.Proofs.Reshape
import Mathlib.Algebra.BigOperators.Intervals
import Mathlib.Algebra.BigOperators.Ring.Finset
import Mathlib.Tactic.Ring

/-!
# The limit on arrays

Before DIM or REDIM builds an array it compares two counts with the limit: the elements, and the
arrays inside the array.  The second one matters where a size is zero: there are no elements then,
but there may be any number of arrays to hold them.  Both are computed in counts that stop at the
largest one.  Here they are compared with what is built.

* `Value.slots_eq`: stopping at the largest count changes nothing below it.
* `Value.leaves_refit_none` and `Value.arrayCount_refit_none`: the elements and the arrays of an
  array that starts from nothing.
* `allocation_check_exact`: which sizes are accepted, and what DIM builds of them.
-/

namespace BasicScript

namespace Value

/-! ## What an array holds -/

mutual

/-- The elements of a value: all that is no array, however deep it lies. -/
def leaves : Value → List Value
  | array items => leavesAmong items
  | v => [v]

/-- The elements of a list of values. -/
def leavesAmong : List Value → List Value
  | [] => []
  | v :: rest => v.leaves ++ leavesAmong rest

end

mutual

/-- How many arrays a value is made of, itself included. -/
def arrayCount : Value → Nat
  | array items => arraysAmong items + 1
  | _ => 0

/-- How many arrays the values of a list are made of. -/
def arraysAmong : List Value → Nat
  | [] => 0
  | v :: rest => v.arrayCount + arraysAmong rest

end

/-- How many arrays lie inside a value. -/
def innerArrays (v : Value) : Nat :=
  arraysAmong (itemsOf v)

/-- `n₁ + n₁ * n₂ + ⋯ + n₁ * ⋯ * nₖ₋₁`: the products of all beginnings of a list of sizes but the
empty one and the whole list. -/
def prefixSum (sizes : List Nat) : Nat :=
  ∑ k ∈ Finset.Ico 1 sizes.length, (sizes.take k).prod

variable {sizes : List Nat}

/-- Equal arrays of empty values have empty values only. -/
theorem leavesAmong_replicate {v : Value} {k : Nat} (h : v.leaves = List.replicate k nil)
    (n : Nat) :
    leavesAmong (List.replicate n v) = List.replicate (n * k) nil := by
  induction n with
  | zero => rw [Nat.zero_mul]; rfl
  | succ n ih =>
    rw [List.replicate_succ, leavesAmong, h, ih, List.replicate_append_replicate, Nat.succ_mul,
      Nat.add_comm]

/-- Equal arrays hold equally many arrays. -/
theorem arraysAmong_replicate (n : Nat) (v : Value) :
    arraysAmong (List.replicate n v) = n * v.arrayCount := by
  induction n with
  | zero => rw [Nat.zero_mul]; rfl
  | succ n ih =>
    rw [List.replicate_succ, arraysAmong, ih, Nat.succ_mul, Nat.add_comm]

/-- Where nothing was, all items of a new array are alike. -/
theorem refit_none_cons (n : Nat) (rest : List Nat) :
    refit none (n :: rest) = array (List.replicate n (refit none rest)) := by
  rw [refit_cons]
  show array ((firstItems n []).map _) = _
  unfold firstItems
  rw [List.take_nil, List.length_nil, Nat.sub_zero, List.map_nil, List.nil_append,
    List.map_replicate]

/-- The elements of a new array are as many as the product of its sizes says, and all empty. -/
theorem leaves_refit_none (sizes : List Nat) :
    (refit none sizes).leaves = List.replicate sizes.prod nil := by
  induction sizes with
  | nil => rfl
  | cons n rest ih =>
    rw [refit_none_cons, leaves, leavesAmong_replicate ih, List.prod_cons]

/-- A new array is made of one array for each beginning of a place in it that goes on. -/
theorem arrayCount_refit_none (sizes : List Nat) :
    (refit none sizes).arrayCount = ∑ k ∈ Finset.range sizes.length, (sizes.take k).prod := by
  induction sizes with
  | nil => rfl
  | cons n rest ih =>
    rw [refit_none_cons, arrayCount, arraysAmong_replicate, ih, List.length_cons,
      Finset.sum_range_succ', Finset.mul_sum]
    rfl

/-- All arrays but the outermost one lie inside it, once for each of its items. -/
theorem innerArrays_refit_none (h : sizes ≠ []) :
    (refit none sizes).innerArrays = prefixSum sizes := by
  obtain ⟨n, rest, rfl⟩ := List.exists_cons_of_ne_nil h
  have hinner : (refit none (n :: rest)).innerArrays = n * (refit none rest).arrayCount := by
    rw [refit_none_cons]
    exact arraysAmong_replicate n _
  unfold prefixSum
  rw [hinner, arrayCount_refit_none, Finset.sum_Ico_eq_sum_range, List.length_cons,
    Nat.add_sub_cancel, Finset.mul_sum]
  refine Finset.sum_congr rfl fun k _ => ?_
  rw [Nat.add_comm 1 k, List.take_succ_cons, List.prod_cons]

/-! ## Counts that stop at the largest one -/

/-- A product is stopped at the end just as well as in between: what has been stopped is so large
that only a zero gets it below the largest count again. -/
theorem min_mul_min (a b : Nat) : min (min a maxCount * b) maxCount = min (a * b) maxCount := by
  rcases Nat.le_total a maxCount with h | h
  · rw [Nat.min_eq_left h]
  · rw [Nat.min_eq_right h]
    rcases Nat.eq_zero_or_pos b with rfl | hb
    · rw [Nat.mul_zero, Nat.mul_zero]
    · rw [Nat.min_eq_right (Nat.le_mul_of_pos_right _ hb),
        Nat.min_eq_right (h.trans (Nat.le_mul_of_pos_right _ hb))]

/-- A product that stops at a maximum is the product, up to the maximum. -/
theorem foldl_times (p : Nat) (sizes : List Nat) :
    sizes.foldl (fun a b => min (a * b) maxCount) (min p maxCount) =
      min (p * sizes.prod) maxCount := by
  induction sizes generalizing p with
  | nil => rw [List.prod_nil, Nat.mul_one]; rfl
  | cons n rest ih => rw [List.foldl_cons, min_mul_min, ih, List.prod_cons, Nat.mul_assoc]

/-- The products of all beginnings of a list of sizes but the empty one. -/
def beginningsSum (sizes : List Nat) : Nat :=
  ∑ k ∈ Finset.range sizes.length, (sizes.take (k + 1)).prod

/-- The products of the beginnings, with one size more in front. -/
theorem beginningsSum_cons (n : Nat) (rest : List Nat) :
    beginningsSum (n :: rest) = n + n * beginningsSum rest := by
  unfold beginningsSum
  rw [List.length_cons, Finset.sum_range_succ', Finset.mul_sum, Nat.add_comm]
  simp only [List.take_succ_cons, List.prod_cons, List.take_zero, List.prod_nil, Nat.mul_one]

/-- A size is followed by one more only if it is not the last. -/
theorem prefixSum_eq_dropLast (sizes : List Nat) :
    prefixSum sizes = beginningsSum sizes.dropLast := by
  unfold prefixSum beginningsSum
  rw [Finset.sum_Ico_eq_sum_range, List.length_dropLast]
  refine Finset.sum_congr rfl fun k hk => ?_
  have hle : k + 1 ≤ sizes.length - 1 := Finset.mem_range.mp hk
  rw [List.dropLast_eq_take, List.take_take, Nat.min_eq_left hle, Nat.add_comm 1 k]

/-- The sum of the products as it is computed, up to the maximum. -/
theorem foldl_inner (s p : Nat) (sizes : List Nat) :
    sizes.foldl (fun (sum, count) n =>
        (min (sum + min (count * n) maxCount) maxCount, min (count * n) maxCount))
        (min s maxCount, min p maxCount) =
      (min (s + p * beginningsSum sizes) maxCount, min (p * sizes.prod) maxCount) := by
  induction sizes generalizing s p with
  | nil => rw [List.prod_nil, Nat.mul_one]; rfl
  | cons n rest ih =>
    have hsum : min (min s maxCount + min (p * n) maxCount) maxCount =
        min (s + p * n) maxCount := by
      omega
    have htotal : s + p * n + p * n * beginningsSum rest = s + p * beginningsSum (n :: rest) := by
      rw [beginningsSum_cons]
      ring
    rw [List.foldl_cons]
    dsimp only
    rw [min_mul_min, hsum, ih, htotal, List.prod_cons, Nat.mul_assoc]

/-- **The counts that are compared with the limit are exact up to the largest one.** -/
theorem slots_eq (h : sizes ≠ []) :
    slots sizes = min (max sizes.prod (prefixSum sizes)) maxCount := by
  have hproduct := foldl_times 1 sizes
  have hinner := congrArg Prod.fst (foldl_inner 0 1 sizes.dropLast)
  dsimp only at hinner
  rw [Nat.one_mul] at hproduct
  rw [Nat.zero_add, Nat.one_mul, ← prefixSum_eq_dropLast] at hinner
  have hnonempty : sizes.isEmpty = false := by
    cases sizes with
    | nil => exact absurd rfl h
    | cons n rest => rfl
  show (if sizes.isEmpty = true then 0 else
    max (sizes.foldl (fun a b => min (a * b) maxCount) (min 1 maxCount))
      (sizes.dropLast.foldl (fun (sum, count) n =>
        (min (sum + min (count * n) maxCount) maxCount, min (count * n) maxCount))
        (min 0 maxCount, min 1 maxCount)).1) = _
  rw [hnonempty, if_neg Bool.false_ne_true, hproduct, hinner]
  omega

end Value

open Value

/-- The failure of an array over the limit. -/
def overLimit (what : String) (sizes : List Nat) : Failure :=
  .allocationTooLarge what (sizes.map Int.ofNat) (min (max sizes.prod (prefixSum sizes)) maxCount)

/-- The check passes if the product and the sum of the beginnings are within the limit. -/
theorem checkSizes_eq (cx : Context) (what : String) {sizes : List Nat} (hsizes : sizes ≠ [])
    (hlimit : cx.config.maxElements < maxCount) :
    checkSizes cx what sizes =
      if sizes.prod ≤ cx.config.maxElements ∧ prefixSum sizes ≤ cx.config.maxElements then pure ()
      else Run.fail (overLimit what sizes) := by
  have haccepted : ¬cx.config.maxElements < min (max sizes.prod (prefixSum sizes)) maxCount ↔
      sizes.prod ≤ cx.config.maxElements ∧ prefixSum sizes ≤ cx.config.maxElements := by
    omega
  unfold checkSizes
  rw [slots_eq hsizes]
  dsimp only
  by_cases hfits : sizes.prod ≤ cx.config.maxElements ∧ prefixSum sizes ≤ cx.config.maxElements
  · rw [if_neg (haccepted.mpr hfits), if_pos hfits]
  · rw [if_pos (not_not.mp fun h => hfits (haccepted.mp h)), if_neg hfits]
    rfl

/-- **The check of the sizes of an array is exact.**  Let there be at least one size, and let the
limit lie below the largest count.  The sizes are accepted exactly if both the product of all of them
and the sum of the products of their beginnings are within the limit, computed without any bound; if
not, the failure says which sizes were refused.  The two numbers are exactly what is built: so many
elements, all of them empty values, and so many arrays inside the array.  So DIM either fails before
it builds anything or declares an array of which both counts are within the limit. -/
theorem allocation_check_exact (cx : Context) (what : String) (sizes : List Nat)
    (hsizes : sizes ≠ []) (hlimit : cx.config.maxElements < maxCount) (m : Machine) :
    let fits := sizes.prod ≤ cx.config.maxElements ∧ prefixSum sizes ≤ cx.config.maxElements
    (checkSizes cx what sizes m = .ok () m ↔ fits) ∧
    (¬fits → checkSizes cx what sizes m = .error (.failed (overLimit what sizes)) m) ∧
    (reshape none sizes).leaves = List.replicate sizes.prod nil ∧
    (reshape none sizes).innerArrays = prefixSum sizes ∧
    ∀ (g : Engine) (name : Ident) (es : List Expr) (m₀ : Machine), g.sizes es m₀ = .ok sizes m →
      (fits → g.dim cx name es m₀ = Run.define name.name (reshape none sizes) m) ∧
      (¬fits → g.dim cx name es m₀ = .error (.failed (overLimit "DIM" sizes)) m) := by
  intro fits
  have haccepts : fits → ∀ what, checkSizes cx what sizes m = .ok () m := by
    intro hfits what
    rw [checkSizes_eq cx what hsizes hlimit, if_pos hfits]
    rfl
  have hrefuses : ¬fits → ∀ what,
      checkSizes cx what sizes m = .error (.failed (overLimit what sizes)) m := by
    intro hfits what
    rw [checkSizes_eq cx what hsizes hlimit, if_neg hfits]
    rfl
  refine ⟨⟨?_, fun hfits => haccepts hfits what⟩, fun hfits => hrefuses hfits what, ?_, ?_, ?_⟩
  · intro haccepted
    by_contra hfits
    rw [hrefuses hfits what] at haccepted
    cases haccepted
  · rw [reshape_eq_refit hsizes]
    exact leaves_refit_none sizes
  · rw [reshape_eq_refit hsizes]
    exact innerArrays_refit_none hsizes
  · intro g name es m₀ hes
    constructor
    · intro hfits
      exact (Run.bind_of_ok hes).trans (Run.bind_of_ok (haccepts hfits "DIM"))
    · intro hfits
      exact (Run.bind_of_ok hes).trans (Run.bind_of_error (hrefuses hfits "DIM"))

/-- Eight arrays without an element are within a limit of eight, but not of seven. -/
theorem allocation_check_exact_noElements :
    let sizes := [2, 3, 0]
    let limited (limit : Nat) : Context := { config := { maxElements := limit } }
    sizes ≠ [] ∧ 8 < maxCount ∧
    checkSizes (limited 8) "DIM" sizes {} = .ok () {} ∧
    checkSizes (limited 7) "DIM" sizes {} =
      .error (.failed (.allocationTooLarge "DIM" [2, 3, 0] 8)) {} ∧
    (reshape none sizes).leaves = [] ∧ (reshape none sizes).innerArrays = 8 := by
  intro sizes limited
  have hsizes : sizes ≠ [] := List.cons_ne_nil _ _
  obtain ⟨haccepts, -, hleaves, hinner, -⟩ :=
    allocation_check_exact (limited 8) "DIM" sizes hsizes (by decide) {}
  obtain ⟨-, hrefuses, -⟩ := allocation_check_exact (limited 7) "DIM" sizes hsizes (by decide) {}
  exact ⟨hsizes, by decide, haccepts.mpr (by decide), hrefuses (by decide), hleaves, hinner⟩

end BasicScript
