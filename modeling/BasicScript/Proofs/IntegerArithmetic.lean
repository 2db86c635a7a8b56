import BasicScript.Value.Operator
import Mathlib.Algebra.Ring.Int.Parity

/-!
# Arithmetic on integers

An operator on two integers of 64 bits has an exact result, where it has one at all, that may be too
large for 64 bits.  Sums, differences, products, powers and negations are integers if the exact result
fits and doubles otherwise.  Two cases fall out of this order.  The quotient of the least integer and
minus one does not fit, and is the least integer again.  A power whose exponent has more than 32 bits
is a double also where it fits, which it does for the bases -1, 0 and 1.

* `Value.exactResult?`: what an operator makes of two integers in mathematics.
* `Value.IntegerIfFits`: a result is the exact integer or, if that does not fit, a double.
* `Value.intPow?_eq`: a power is computed exactly for every exponent of 32 bits.
* `integer_result_exact_unless_quotient_wraps`: an integer that an operator returns is exact.
* `integers_stay_integers_unless_exponent_wide`: when the result is an integer.
-/

namespace BasicScript

namespace Value

/-- The exact result of an arithmetic operator on two integers, where there is an integral one.
Division truncates toward zero, and the remainder is what it leaves. -/
def exactResult? (op : BinaryOp) (a b : Int) : Option Int :=
  match op with
  | .add => some (a + b)
  | .sub => some (a - b)
  | .mul => some (a * b)
  | .intDiv => if b = 0 then none else some (a.tdiv b)
  | .mod => if b = 0 then none else some (a - b * a.tdiv b)
  | .pow => if b < 0 then none else some (a ^ b.toNat)
  | _ => none

/-- The one quotient that 64 bits do not hold. -/
structure QuotientWraps (op : BinaryOp) (a b : Int64) : Prop where
  op_eq : op = .intDiv
  least : a = Int64.minValue
  minus_one : b = -1

/-- A power that fits whatever its exponent is, with an exponent of more than 32 bits. -/
structure ExponentWide (a b : Int64) : Prop where
  base_le : a.toInt.natAbs ≤ 1
  le_exponent : 2 ^ 32 ≤ b.toInt

/-- The result is the exact one as an integer if 64 bits hold it, and a double otherwise. -/
structure IntegerIfFits (exact : Option Int) (result : Except Failure Value) : Prop where
  integer : ∀ n : Int64, exact = some n.toInt → result = .ok (.int n)
  double : (∀ n : Int64, exact ≠ some n.toInt) → ∃ x, result = .ok (.float x)

namespace IntegerIfFits

variable {exact : Option Int} {result : Except Failure Value}

/-- An integer among such results is exact. -/
theorem eq_some_of_int {n : Int64} (h : IntegerIfFits exact result) (hn : result = .ok (.int n)) :
    exact = some n.toInt := by
  by_cases hfits : ∃ w : Int64, exact = some w.toInt
  · obtain ⟨w, hw⟩ := hfits
    have hresult := h.integer w hw
    rw [hn] at hresult
    cases hresult
    exact hw
  · obtain ⟨x, hx⟩ := h.double fun w hw => hfits ⟨w, hw⟩
    rw [hn] at hx
    cases hx

/-- No double is the result where the exact one fits. -/
theorem ne_double {n : Int64} {x : Float} (h : IntegerIfFits (some n.toInt) result) :
    result ≠ .ok (.float x) := by
  intro hx
  have hn := h.integer n rfl
  rw [hx] at hn
  cases hn

/-- Where there is no exact result, any float will do. -/
theorem of_none {x : Float} (h : result = .ok (.float x)) : IntegerIfFits none result where
  integer _ hn := by cases hn
  double _ := ⟨x, h⟩

/-- A check whether the exact result fits, with a double to fall back on. -/
theorem of_ofInt? {i : Int} {x : Float}
    (h : result = match Word.ofInt? i with | some n => .ok (.int n) | none => .ok (.float x)) :
    IntegerIfFits (some i) result where
  integer n hn := by
    obtain rfl := Option.some.inj hn
    rw [h, Word.ofInt?_toInt]
  double hwide := by
    cases hi : Word.ofInt? i with
    | some n => exact absurd (congrArg some (Word.toInt_of_ofInt?_eq_some hi).symm) (hwide n)
    | none =>
      rw [h, hi]
      exact ⟨x, rfl⟩

end IntegerIfFits

/-! ## Sums, differences, products and negations -/

/-- Sums, differences and products are exact if they fit. -/
theorem integerIfFits_arithmetic (exact : Int → Int → Int) (rounded : Float → Float → Float)
    (a b : Int64) :
    IntegerIfFits (some (exact a.toInt b.toInt)) (arithmetic exact rounded (.int a) (.int b)) :=
  .of_ofInt? (x := rounded (Double.ofInt a.toInt) (Double.ofInt b.toInt)) rfl

/-- The opposite of an integer is exact if it fits. -/
theorem integerIfFits_neg (a : Int64) :
    IntegerIfFits (some (-a.toInt)) (unary .neg (.int a)) :=
  .of_ofInt? (x := -Double.ofInt a.toInt) rfl

/-! ## Quotients and remainders -/

/-- The quotient of two integers, truncated. -/
theorem intDiv_int (a b : Int64) :
    intDiv (.int a) (.int b) = if b == 0 then .error .divisionByZero else .ok (.int (a / b)) :=
  rfl

/-- The remainder of two integers. -/
theorem mod_int (a b : Int64) :
    mod (.int a) (.int b) = if b == 0 then .error .moduloByZero else .ok (.int (a % b)) :=
  rfl

/-- What is returned behind a check of the divisor. -/
theorem ok_of_divisor_checked {b n r : Int64} {e : Failure}
    (h : (if b == 0 then .error e else .ok (int r) : Except Failure Value) = .ok (.int n)) :
    b.toInt ≠ 0 ∧ n = r := by
  split at h
  · cases h
  · next hb =>
    cases h
    exact ⟨fun hzero => hb (beq_iff_eq.mpr (Int64.toInt_inj.mp hzero)), rfl⟩

/-- A quotient is exact, but for the one that does not fit. -/
theorem toInt_div_eq_iff (a b : Int64) :
    (a / b).toInt = a.toInt.tdiv b.toInt ↔ ¬(a = Int64.minValue ∧ b = -1) := by
  constructor
  · intro hexact hwraps
    obtain ⟨rfl, rfl⟩ := hwraps
    revert hexact
    decide
  · intro hfits
    by_cases hleast : a = Int64.minValue
    · exact Int64.toInt_div_of_ne_right a b fun hone => hfits ⟨hleast, hone⟩
    · exact Int64.toInt_div_of_ne_left a b hleast

/-! ## Powers -/

/-- Powers of -1, 0 and 1 depend on the parity of the exponent only, once it is not zero. -/
theorem pow_shortened {base : Int} (hbase : base.natAbs ≤ 1) (e : Nat) :
    base ^ min e (2 + e % 2) = base ^ e := by
  by_cases hshort : e < 2
  · rw [Nat.min_eq_left (by omega)]
  rw [Nat.min_eq_right (by omega)]
  obtain rfl | rfl | rfl : base = 0 ∨ base = 1 ∨ base = -1 := by omega
  · rw [zero_pow (by omega), zero_pow (by omega)]
  · rw [one_pow, one_pow]
  · rw [neg_one_pow_eq_pow_mod_two, neg_one_pow_eq_pow_mod_two (n := e)]
    congr 1
    omega

/-- Any other base outgrows 64 bits with an exponent of 64. -/
theorem ofInt?_pow_eq_none {base : Int} (hbase : 1 < base.natAbs) {e : Nat} (he : 64 ≤ e) :
    Word.ofInt? (base ^ e) = none := by
  have hgrown : 2 ^ 64 ≤ (base ^ e).natAbs := by
    calc 2 ^ 64 ≤ base.natAbs ^ 64 := Nat.pow_le_pow_left hbase 64
      _ ≤ base.natAbs ^ e := Nat.pow_le_pow_right (by omega) he
      _ = (base ^ e).natAbs := (Int.natAbs_pow base e).symm
  rw [Word.ofInt?_eq_none_iff]
  unfold Word.least Word.greatest
  omega

/-- **A power is computed exactly for every exponent of 32 bits.** -/
theorem intPow?_eq (base : Int) {exponent : Int} (hsign : 0 ≤ exponent)
    (hnarrow : exponent < 2 ^ 32) :
    intPow? base exponent = Word.ofInt? (base ^ exponent.toNat) := by
  unfold intPow?
  rw [if_neg (by omega)]
  by_cases hbase : base.natAbs ≤ 1
  · simp only [if_pos hbase]
    rw [if_neg (by omega), ← pow_shortened hbase exponent.toNat]
    rfl
  · simp only [if_neg hbase]
    split
    · next hlong => rw [ofInt?_pow_eq_none (by omega) hlong]
    · rfl

/-- A negative or wide exponent has no exact power. -/
theorem intPow?_eq_none {base exponent : Int} (h : exponent < 0 ∨ 2 ^ 32 ≤ exponent) :
    intPow? base exponent = none :=
  if_pos h

/-- A power of integers is the exact one, or else a float. -/
theorem pow_int (a b : Int64) :
    ∃ x, pow (.int a) (.int b) =
      match intPow? a.toInt b.toInt with
      | some n => .ok (.int n)
      | none => .ok (.float x) :=
  ⟨(Double.ofInt a.toInt).pow (Double.ofInt b.toInt), rfl⟩

/-- With a negative exponent, and with one of more than 32 bits, a power is a double. -/
theorem pow_eq_double {a b : Int64} (h : b.toInt < 0 ∨ 2 ^ 32 ≤ b.toInt) :
    ∃ x, pow (.int a) (.int b) = .ok (.float x) := by
  obtain ⟨x, hx⟩ := pow_int a b
  rw [intPow?_eq_none h] at hx
  exact ⟨x, hx⟩

/-- A power is exact if it fits, unless the exponent is wide. -/
theorem integerIfFits_pow {a b : Int64} (h : ¬ExponentWide a b) :
    IntegerIfFits (exactResult? .pow a.toInt b.toInt) (pow (.int a) (.int b)) := by
  unfold exactResult?
  dsimp only
  split
  · next hnegative =>
    obtain ⟨x, hx⟩ := pow_eq_double (a := a) (.inl hnegative)
    exact .of_none hx
  next hsign =>
  by_cases hnarrow : b.toInt < 2 ^ 32
  · obtain ⟨x, hx⟩ := pow_int a b
    rw [intPow?_eq a.toInt (by omega) hnarrow] at hx
    exact .of_ofInt? hx
  · -- The base is none of -1, 0 and 1, so that nothing fits here.
    have hbase : 1 < a.toInt.natAbs := by
      by_contra hsmall
      exact h ⟨by omega, by omega⟩
    obtain ⟨x, hx⟩ := pow_eq_double (a := a) (b := b) (.inr (by omega))
    refine .of_ofInt? (x := x) ?_
    rw [hx, ofInt?_pow_eq_none hbase (by omega)]

/-- The powers of -1, 0 and 1 fit. -/
theorem ExponentWide.fits {a b : Int64} (h : ExponentWide a b) :
    ∃ n : Int64, exactResult? .pow a.toInt b.toInt = some n.toInt := by
  have hle : (a.toInt ^ b.toInt.toNat).natAbs ≤ 1 := by
    calc (a.toInt ^ b.toInt.toNat).natAbs = a.toInt.natAbs ^ b.toInt.toNat := Int.natAbs_pow _ _
      _ ≤ 1 ^ b.toInt.toNat := Nat.pow_le_pow_left h.base_le _
      _ = 1 := Nat.one_pow _
  have hexponent := h.le_exponent
  unfold exactResult?
  dsimp only
  rw [if_neg (by omega)]
  refine ⟨Int64.ofInt (a.toInt ^ b.toInt.toNat), congrArg some ?_⟩
  exact (Int64.toInt_ofInt_of_le (by omega) (by omega)).symm

/-! ## All operators -/

/-- An integer that an operator other than division returns is exact. -/
theorem exactResult?_of_ne_intDiv {op : BinaryOp} {a b n : Int64} (hop : op ≠ .intDiv)
    (h : binary op (.int a) (.int b) = .ok (.int n)) :
    exactResult? op a.toInt b.toInt = some n.toInt := by
  cases op with
  | add => exact (integerIfFits_arithmetic (· + ·) (· + ·) a b).eq_some_of_int h
  | sub => exact (integerIfFits_arithmetic (· - ·) (· - ·) a b).eq_some_of_int h
  | mul => exact (integerIfFits_arithmetic (· * ·) (· * ·) a b).eq_some_of_int h
  | intDiv => exact absurd rfl hop
  | mod =>
    obtain ⟨hb, rfl⟩ := ok_of_divisor_checked ((mod_int a b).symm.trans h)
    unfold exactResult?
    dsimp only
    rw [if_neg hb, Int64.toInt_mod, Int.tmod_def]
  | pow =>
    refine (integerIfFits_pow fun hwide => ?_).eq_some_of_int h
    obtain ⟨x, hx⟩ := pow_eq_double (a := a) (.inr hwide.le_exponent)
    cases hx.symm.trans h
  | _ => cases h

/-- A quotient that is returned is that of the words. -/
theorem intDiv_of_ok {a b n : Int64} (h : binary .intDiv (.int a) (.int b) = .ok (.int n)) :
    exactResult? .intDiv a.toInt b.toInt = some (a.toInt.tdiv b.toInt) ∧ n = a / b := by
  obtain ⟨hb, hn⟩ := ok_of_divisor_checked ((intDiv_int a b).symm.trans h)
  exact ⟨if_neg hb, hn⟩

end Value

open Value

/-- **An integer that an operator returns is exact**, whatever the operator and its operands are,
unless it is the quotient of the least integer and minus one.  That quotient is returned as the least
integer, with the wrong sign. -/
theorem integer_result_exact_unless_quotient_wraps (op : BinaryOp) (a b n : Int64)
    (h : binary op (.int a) (.int b) = .ok (.int n)) :
    (exactResult? op a.toInt b.toInt = some n.toInt ↔ ¬QuotientWraps op a b) ∧
      (QuotientWraps op a b → n = Int64.minValue) := by
  by_cases hop : op = .intDiv
  · subst hop
    obtain ⟨hexact, rfl⟩ := intDiv_of_ok h
    rw [hexact, Option.some_inj, eq_comm, toInt_div_eq_iff]
    constructor
    · exact not_congr ⟨fun hwraps => ⟨rfl, hwraps.1, hwraps.2⟩,
        fun hwraps => ⟨hwraps.least, hwraps.minus_one⟩⟩
    · intro hwraps
      rw [hwraps.least, hwraps.minus_one]
      exact Int64.minValue_div_neg_one
  · have hexact := exactResult?_of_ne_intDiv hop h
    exact ⟨iff_of_true hexact fun hwraps => hop hwraps.op_eq,
      fun hwraps => absurd hwraps.op_eq hop⟩

/-- A remainder with the sign of the dividend is exact, and so is any other quotient of the least
integer; its quotient by minus one is not. -/
theorem integer_result_exact_unless_quotient_wraps_least :
    binary .mod (.int (-7)) (.int 2) = .ok (.int (-1)) ∧
      exactResult? .mod (Int64.toInt (-7)) (Int64.toInt 2) = some (Int64.toInt (-1)) ∧
      binary .intDiv (.int Int64.minValue) (.int (-1)) = .ok (.int Int64.minValue) ∧
      exactResult? .intDiv Int64.minValue.toInt (Int64.toInt (-1)) ≠
        some Int64.minValue.toInt := by
  have hremainder : binary .mod (.int (-7)) (.int 2) = .ok (.int (-1)) := rfl
  have hquotient : binary .intDiv (.int Int64.minValue) (.int (-1)) =
    .ok (.int Int64.minValue) := rfl
  have hexact := integer_result_exact_unless_quotient_wraps _ _ _ _ hremainder
  have hwraps := integer_result_exact_unless_quotient_wraps _ _ _ _ hquotient
  refine ⟨hremainder, hexact.1.mpr ?_, hquotient, fun heq => hwraps.1.mp heq ⟨rfl, rfl, rfl⟩⟩
  intro himpossible
  cases himpossible.op_eq

/-- The least integer divided by minus one is returned as the least integer, and not as `2 ^ 63`. -/
theorem least_quotient_wraps :
    binary .intDiv (.int Int64.minValue) (.int (-1)) = .ok (.int Int64.minValue) ∧
      exactResult? .intDiv Int64.minValue.toInt (Int64.toInt (-1)) = some 0x8000000000000000 ∧
      Int64.minValue.toInt = -0x8000000000000000 :=
  ⟨rfl, by decide, by decide⟩

/-- **Integers stay integers where the result fits.**  A sum, a difference, a product and a negation
is the exact integer if 64 bits hold it, and a double otherwise.  So is a power, with a double for
every negative exponent, unless the base is -1, 0 or 1 and the exponent has more than 32 bits: then
the exact power fits and the result is a double all the same. -/
theorem integers_stay_integers_unless_exponent_wide (a b : Int64) :
    (∀ op ∈ [BinaryOp.add, .sub, .mul],
      IntegerIfFits (exactResult? op a.toInt b.toInt) (binary op (.int a) (.int b))) ∧
    IntegerIfFits (some (-a.toInt)) (unary .neg (.int a)) ∧
    (IntegerIfFits (exactResult? .pow a.toInt b.toInt) (binary .pow (.int a) (.int b)) ↔
      ¬ExponentWide a b) ∧
    (ExponentWide a b → (∃ n : Int64, exactResult? .pow a.toInt b.toInt = some n.toInt) ∧
      ∃ x, binary .pow (.int a) (.int b) = .ok (.float x)) := by
  refine ⟨?_, integerIfFits_neg a, ⟨?_, integerIfFits_pow⟩, ?_⟩
  · intro op hop
    simp only [List.mem_cons, List.not_mem_nil, or_false] at hop
    obtain rfl | rfl | rfl := hop
    · exact integerIfFits_arithmetic (· + ·) (· + ·) a b
    · exact integerIfFits_arithmetic (· - ·) (· - ·) a b
    · exact integerIfFits_arithmetic (· * ·) (· * ·) a b
  · intro hfits hwide
    obtain ⟨n, hn⟩ := hwide.fits
    obtain ⟨x, hx⟩ := pow_eq_double (a := a) (.inr hwide.le_exponent)
    rw [hn] at hfits
    exact hfits.ne_double hx
  · intro hwide
    exact ⟨hwide.fits, pow_eq_double (.inr hwide.le_exponent)⟩

/-- One to a power of more than 32 bits is one, and yet a double. -/
theorem wide_power_leaves_integers :
    exactResult? .pow (Int64.toInt 1) (Int64.toInt 0x100000000) = some (Int64.toInt 1) ∧
      ∃ x, binary .pow (.int 1) (.int 0x100000000) = .ok (.float x) :=
  ⟨congrArg some (one_pow _), _, rfl⟩

end BasicScript
