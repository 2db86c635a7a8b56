import BasicScript.Proofs.Double.Bits
import Mathlib.Algebra.Order.Field.Power
import Mathlib.Data.Rat.Cast.Order
import Mathlib.Tactic.FieldSimp
import Mathlib.Tactic.Linarith
import Mathlib.Tactic.NormNum
import Mathlib.Tactic.Positivity
import Mathlib.Tactic.Ring

/-!
# Rounding to the nearest double

A fraction near the finite double `m * 2 ^ e` rounds to that double.  Near means at most half of
`2 ^ e` away, or a quarter of it below a power of two, where the doubles lie twice as dense; an end
of this interval belongs to it when the mantissa is even.

* `Near m e v`: the fraction `v` is near the double `m * 2 ^ e`.
* `Quantum v e`: the exponent `e` gives `v` a mantissa with 53 binary digits.
* `nearestBits_eq_of_near`: what is near a double rounds to it.
-/

namespace BasicScript.Double

/-! ## Fractions of natural numbers -/

/-- Scaling a fraction by a power of two. -/
theorem scaleTwo_div (a b : Nat) (e : Int) :
    ((scaleTwo a b e).1 : ℚ) / ((scaleTwo a b e).2 : ℚ) = a / b * 2 ^ e := by
  unfold scaleTwo
  split
  · next he =>
    obtain ⟨n, rfl⟩ := Int.eq_ofNat_of_zero_le he
    simp only [Nat.shiftLeft_eq, Int.toNat_natCast, Nat.cast_mul, Nat.cast_pow, Nat.cast_ofNat,
      zpow_natCast]
    ring
  · next he =>
    obtain ⟨n, hn⟩ := Int.eq_ofNat_of_zero_le (show 0 ≤ -e by omega)
    obtain rfl : e = -(n : Int) := by omega
    simp only [Nat.shiftLeft_eq, neg_neg, Int.toNat_natCast, Nat.cast_mul, Nat.cast_pow,
      Nat.cast_ofNat, zpow_neg, zpow_natCast]
    rw [div_mul_eq_div_div, div_eq_mul_inv (_ / _)]

/-- The denominator does not depend on the numerator. -/
theorem scaleTwo_snd (a a' b : Nat) (e : Int) : (scaleTwo a b e).2 = (scaleTwo a' b e).2 := by
  unfold scaleTwo
  split <;> rfl

/-- Scaling keeps the divisor positive. -/
theorem scaleTwo_snd_pos {b : Nat} (hb : 0 < b) (a : Nat) (e : Int) : 0 < (scaleTwo a b e).2 := by
  unfold scaleTwo
  split
  · exact hb
  · rw [Nat.shiftLeft_eq]
    positivity

/-- The binary logarithms of numerator and denominator bound a fraction. -/
theorem zpow_log2_lt_div {a b : Nat} (ha : a ≠ 0) (hb : b ≠ 0) :
    (2 : ℚ) ^ ((a.log2 : Int) - b.log2 - 1) < a / b ∧
      (a : ℚ) / b < 2 ^ ((a.log2 : Int) - b.log2 + 1) := by
  have halow : (2 : ℚ) ^ a.log2 ≤ a := by exact_mod_cast Nat.log2_self_le ha
  have hahigh : (a : ℚ) < 2 ^ a.log2 * 2 := by exact_mod_cast @Nat.lt_log2_self a
  have hblow : (2 : ℚ) ^ b.log2 ≤ b := by exact_mod_cast Nat.log2_self_le hb
  have hbhigh : (b : ℚ) < 2 ^ b.log2 * 2 := by exact_mod_cast @Nat.lt_log2_self b
  have hbpos : (0 : ℚ) < b := by exact_mod_cast Nat.pos_of_ne_zero hb
  have hquotient : (2 : ℚ) ^ ((a.log2 : Int) - b.log2) = 2 ^ a.log2 / 2 ^ b.log2 := by
    rw [zpow_sub₀ two_ne_zero, zpow_natCast, zpow_natCast]
  constructor
  · calc (2 : ℚ) ^ ((a.log2 : Int) - b.log2 - 1)
        = 2 ^ a.log2 / (2 ^ b.log2 * 2) := by
          rw [zpow_sub_one₀ two_ne_zero, hquotient, div_mul_eq_div_div, div_eq_mul_inv (_ / _)]
      _ < 2 ^ a.log2 / b := div_lt_div_of_pos_left (by positivity) hbpos hbhigh
      _ ≤ a / b := div_le_div_of_nonneg_right halow hbpos.le
  · calc (a : ℚ) / b
        ≤ a / 2 ^ b.log2 := div_le_div_of_nonneg_left (by positivity) (by positivity) hblow
      _ < 2 ^ a.log2 * 2 / 2 ^ b.log2 := div_lt_div_of_pos_right hahigh (by positivity)
      _ = 2 ^ ((a.log2 : Int) - b.log2 + 1) := by
          rw [zpow_add_one₀ two_ne_zero, hquotient, div_mul_eq_mul_div]

/-- The natural number nearest to a quotient; a half belongs to an even one. -/
theorem divRoundEven_eq {c d n : Nat} (hd : 0 < d) (hlow : (n : ℚ) - 1 / 2 ≤ c / d)
    (hhigh : (c : ℚ) / d ≤ n + 1 / 2)
    (hodd : n % 2 ≠ 0 → (n : ℚ) - 1 / 2 < c / d ∧ (c : ℚ) / d < n + 1 / 2) :
    divRoundEven c d = n := by
  have hdpos : (0 : ℚ) < d := by exact_mod_cast hd
  have hlow' : 2 * (n * d) ≤ 2 * c + d := by
    rw [le_div_iff₀ hdpos] at hlow
    exact_mod_cast (show (2 * (n * d) : ℚ) ≤ 2 * c + d by linarith)
  have hhigh' : 2 * c ≤ 2 * (n * d) + d := by
    rw [div_le_iff₀ hdpos] at hhigh
    exact_mod_cast (show (2 * c : ℚ) ≤ 2 * (n * d) + d by linarith)
  have hodd' : n % 2 ≠ 0 → 2 * (n * d) < 2 * c + d ∧ 2 * c < 2 * (n * d) + d := by
    intro h
    obtain ⟨hlt, hgt⟩ := hodd h
    rw [lt_div_iff₀ hdpos] at hlt
    rw [div_lt_iff₀ hdpos] at hgt
    constructor
    · exact_mod_cast (show (2 * (n * d) : ℚ) < 2 * c + d by linarith)
    · exact_mod_cast (show (2 * c : ℚ) < 2 * (n * d) + d by linarith)
  have hdivision := Nat.div_add_mod c d
  have hmod := Nat.mod_lt c hd
  -- the candidates are the quotient and its successor
  have hcandidate : n = c / d ∨ n = c / d + 1 := by
    have hge : c / d ≤ n := by
      by_contra hlt
      have := Nat.mul_le_mul_left d (show n + 1 ≤ c / d by omega)
      grind
    have hle : n ≤ c / d + 1 := by
      by_contra hlt
      have := Nat.mul_le_mul_left d (show c / d + 2 ≤ n by omega)
      grind
    omega
  simp only [divRoundEven]
  rcases hcandidate with rfl | rfl
  · rw [Nat.mul_comm (c / d) d] at *
    split
    · rfl
    · split
      · omega
      · split <;> omega
  · rw [Nat.add_mul, Nat.one_mul, Nat.mul_comm (c / d) d] at *
    split
    · omega
    · split
      · rfl
      · split <;> omega

/-! ## Mantissas and exponents as fractions -/

/-- The hidden bit of a mantissa stands for `2 ^ 52`. -/
theorem cast_hiddenBit : ((hiddenBit : Nat) : ℚ) = 2 ^ 52 := by
  norm_num [hiddenBit]

/-- A mantissa is less than `2 ^ 53`. -/
theorem Representable.cast_lt {m : Nat} {e : Int} (h : Representable m e) :
    (m : ℚ) < 2 ^ 53 := by
  exact_mod_cast h.lt

/-- Twice a power of two is the next one. -/
theorem two_zpow_eq (e : Int) : (2 : ℚ) ^ e = 2 * 2 ^ (e - 1) := by
  rw [zpow_sub_one₀ two_ne_zero]
  ring

/-! ## The interval of a double -/

/-- How far below the double `m * 2 ^ e` its interval reaches, in units of `2 ^ e`. -/
def reach (m : Nat) (e : Int) : ℚ :=
  if m = hiddenBit ∧ minExponent < e then 1 / 4 else 1 / 2

/-- The fraction `v` lies in the interval of the numbers that round to the double `m * 2 ^ e`. -/
structure Near (m : Nat) (e : Int) (v : ℚ) : Prop where
  low : (m - reach m e) * 2 ^ e ≤ v
  high : v ≤ (m + 1 / 2) * 2 ^ e
  inside : m % 2 ≠ 0 → (m - reach m e) * 2 ^ e < v ∧ v < (m + 1 / 2) * 2 ^ e

/-- A neighbourhood reaches down half a step at most. -/
theorem reach_le (m : Nat) (e : Int) : reach m e ≤ 1 / 2 := by
  unfold reach
  split <;> norm_num

/-- Nothing near a positive double is zero. -/
theorem Near.pos {m : Nat} {e : Int} {v : ℚ} (h : Near m e v) (hm : 0 < m) : 0 < v := by
  have hone : (1 : ℚ) ≤ m := by exact_mod_cast hm
  have hreach := reach_le m e
  have hpow : (0 : ℚ) < 2 ^ e := by positivity
  calc (0 : ℚ) < (m - reach m e) * 2 ^ e := mul_pos (by linarith) hpow
    _ ≤ v := h.low

/-! ## The exponent of a fraction -/

/-- At the exponent `e` the fraction `v` has a mantissa of 53 binary digits, or fewer at the least
exponent. -/
structure Quantum (v : ℚ) (e : Int) : Prop where
  exponent_ge : minExponent ≤ e
  lt : v < 2 ^ 53 * 2 ^ e
  normal : minExponent < e → 2 ^ 52 * 2 ^ e ≤ v

/-- The exponent that rounding gives a fraction. -/
def quantum (a b : Nat) : Int :=
  let guess : Int := max ((a.log2 : Int) - b.log2 - 52) minExponent
  if (scaleTwo a b (-guess)).1 / (scaleTwo a b (-guess)).2 < hiddenBit then
    max (guess - 1) minExponent
  else guess

/-- The mantissa that rounding gives a fraction. -/
def mantissa (a b : Nat) : Nat :=
  divRoundEven (scaleTwo a b (-quantum a b)).1 (scaleTwo a b (-quantum a b)).2

/-- The word of the nearest double is put together from its step and its mantissa. -/
theorem nearestBits_eq {a : Nat} (ha : a ≠ 0) (b : Nat) :
    nearestBits a b =
      min ((quantum a b - minExponent).toNat * hiddenBit + mantissa a b) infinityBits := by
  unfold nearestBits
  rw [if_neg ha]
  rfl

/-- A fraction in units of `2 ^ e`. -/
theorem scaleTwo_neg_div (a b : Nat) (e : Int) :
    ((scaleTwo a b (-e)).1 : ℚ) / ((scaleTwo a b (-e)).2 : ℚ) = a / b / 2 ^ e := by
  rw [scaleTwo_div, zpow_neg, div_eq_mul_inv (_ / _)]

/-- Whether a fraction in units of `2 ^ e` has fewer than 53 binary digits. -/
theorem scaled_lt_iff {b : Nat} (hb : 0 < b) (a : Nat) (e : Int) :
    (scaleTwo a b (-e)).1 / (scaleTwo a b (-e)).2 < hiddenBit ↔ (a / b : ℚ) < 2 ^ 52 * 2 ^ e := by
  have hpos := scaleTwo_snd_pos hb a (-e)
  have hpow : (0 : ℚ) < 2 ^ e := by positivity
  rw [Nat.div_lt_iff_lt_mul hpos, ← div_lt_iff₀ hpow, ← scaleTwo_neg_div,
    div_lt_iff₀ (by exact_mod_cast hpos)]
  rw [← cast_hiddenBit]
  exact_mod_cast Iff.rfl

/-- The estimate has a mantissa between 51 and 53 binary digits. -/
theorem estimate_range {a b : Nat} (ha : a ≠ 0) (hb : b ≠ 0) :
    (2 : ℚ) ^ 51 * 2 ^ ((a.log2 : Int) - b.log2 - 52) < a / b ∧
      (a / b : ℚ) < 2 ^ 53 * 2 ^ ((a.log2 : Int) - b.log2 - 52) := by
  obtain ⟨hlow, hhigh⟩ := zpow_log2_lt_div ha hb
  have hpow : ∀ i : Nat, (2 : ℚ) ^ i * 2 ^ ((a.log2 : Int) - b.log2 - 52) =
      2 ^ ((a.log2 : Int) - b.log2 + (i - 52)) := by
    intro i
    rw [← zpow_natCast, ← zpow_add₀ two_ne_zero]
    congr 1
    ring
  rw [hpow, hpow]
  exact ⟨hlow, hhigh⟩

/-- The step that is found for a fraction is the right one. -/
theorem quantum_spec {a b : Nat} (ha : a ≠ 0) (hb : b ≠ 0) : Quantum (a / b) (quantum a b) := by
  have hfewer := scaled_lt_iff (Nat.pos_of_ne_zero hb) a
  obtain ⟨hlow, hhigh⟩ := estimate_range ha hb
  generalize hestimate : (a.log2 : Int) - b.log2 - 52 = estimate at *
  simp only [quantum, hestimate]
  split
  · next hfew =>
    rw [hfewer] at hfew
    have hhalf := two_zpow_eq (max estimate minExponent)
    refine ⟨le_max_right .., ?_, fun hlt => ?_⟩
    · have hmono : (2 : ℚ) ^ (max estimate minExponent - 1) ≤
          2 ^ max (max estimate minExponent - 1) minExponent :=
        zpow_le_zpow_right₀ one_le_two (le_max_left ..)
      rw [hhalf] at hfew
      linarith
    · obtain hmax : max estimate minExponent = estimate := by omega
      rw [hmax] at hhalf hlt ⊢
      rw [max_eq_left (by omega)]
      linarith
  · next hmany =>
    rw [hfewer, not_lt] at hmany
    refine ⟨le_max_right .., ?_, fun _ => hmany⟩
    have hmono : (2 : ℚ) ^ estimate ≤ 2 ^ max estimate minExponent :=
      zpow_le_zpow_right₀ one_le_two (le_max_left ..)
    linarith

/-! ## What is near a double rounds to it -/

/-- A fraction near the double `m * 2 ^ e` gets the exponent `e`, or the one below when the double
is a power of two. -/
theorem Near.quantum_eq {m : Nat} {e f : Int} {v : ℚ} (hrep : Representable m e)
    (h : Near m e v) (hf : Quantum v f) : f = e ∨ f = e - 1 ∧ m = hiddenBit ∧ minExponent < e := by
  have hpow : (0 : ℚ) < 2 ^ e := by positivity
  rcases lt_trichotomy f e with hlt | heq | hgt
  · right
    have hmin : minExponent < e := lt_of_le_of_lt hf.exponent_ge hlt
    have hm := hrep.normal hmin
    have hm' : (2 : ℚ) ^ 52 ≤ m := by rw [← cast_hiddenBit]; exact_mod_cast hm
    have hreach := reach_le m e
    have hlow := h.low
    have hlt' := hf.lt
    have hpred := two_zpow_eq e
    have hnext : f = e - 1 := by
      by_contra hne
      have hfar : (2 : ℚ) ^ f ≤ 2 ^ (e - 1 - 1) := zpow_le_zpow_right₀ one_le_two (by omega)
      have hpred' := two_zpow_eq (e - 1)
      nlinarith
    refine ⟨hnext, ?_, hmin⟩
    by_contra hne
    have hsucc : (2 : ℚ) ^ 52 + 1 ≤ m := by
      rw [← cast_hiddenBit]
      exact_mod_cast (show hiddenBit + 1 ≤ m by omega)
    rw [hnext] at hlt'
    nlinarith
  · exact .inl heq
  · exfalso
    have hmin : minExponent < f := lt_of_le_of_lt hrep.exponent_ge hgt
    have hm : (m : ℚ) + 1 ≤ 2 ^ 53 := by exact_mod_cast hrep.lt
    have hfar : (2 : ℚ) ^ (e + 1) ≤ 2 ^ f := zpow_le_zpow_right₀ one_le_two (by omega)
    have hsucc : (2 : ℚ) ^ (e + 1) = 2 * 2 ^ e := by rw [zpow_add_one₀ two_ne_zero]; ring
    have hhigh := h.high
    have hnormal := hf.normal hmin
    nlinarith

/-- The mantissa is the natural number nearest to the fraction in units of its exponent. -/
theorem mantissa_eq {a b n : Nat} (hb : 0 < b) (hlow : (n - 1 / 2) * 2 ^ quantum a b ≤ (a / b : ℚ))
    (hhigh : (a / b : ℚ) ≤ (n + 1 / 2) * 2 ^ quantum a b)
    (hodd : n % 2 ≠ 0 → (n - 1 / 2) * 2 ^ quantum a b < (a / b : ℚ) ∧
      (a / b : ℚ) < (n + 1 / 2) * 2 ^ quantum a b) : mantissa a b = n := by
  have hpow : (0 : ℚ) < 2 ^ quantum a b := by positivity
  apply divRoundEven_eq (scaleTwo_snd_pos hb _ _)
  all_goals rw [scaleTwo_neg_div]
  · exact (le_div_iff₀ hpow).mpr hlow
  · exact (div_le_iff₀ hpow).mpr hhigh
  · exact fun h => ⟨(lt_div_iff₀ hpow).mpr (hodd h).1, (div_lt_iff₀ hpow).mpr (hodd h).2⟩

section Near

variable {a b m : Nat} {e : Int}

/-- A fraction near a double has its mantissa, if it has its step. -/
theorem Near.mantissa_eq (hb : 0 < b) (h : Near m e (a / b)) (heq : quantum a b = e) :
    mantissa a b = m := by
  have hwider : ((m : ℚ) - 1 / 2) * 2 ^ e ≤ (m - reach m e) * 2 ^ e := by
    have := reach_le m e
    gcongr
  apply Double.mantissa_eq hb
  all_goals rw [heq]
  · exact hwider.trans h.low
  · exact h.high
  · exact fun hodd => ⟨hwider.trans_lt (h.inside hodd).1, (h.inside hodd).2⟩

/-- Below a power of two the mantissa rounds up to the next binary digit. -/
theorem Near.mantissa_eq_below (ha : a ≠ 0) (hb : 0 < b) (h : Near hiddenBit e (a / b))
    (heq : quantum a b = e - 1) (hmin : minExponent < e) : mantissa a b = 2 * hiddenBit := by
  have hpred := two_zpow_eq e
  have hcast : ((2 * hiddenBit : Nat) : ℚ) = 2 ^ 53 := by norm_num [hiddenBit]
  have hlow := h.low
  have hlt := (quantum_spec ha (Nat.ne_of_gt hb)).lt
  rw [reach, if_pos ⟨rfl, hmin⟩, hpred, cast_hiddenBit] at hlow
  rw [heq] at hlt
  have hpow : (0 : ℚ) < 2 ^ (e - 1) := by positivity
  apply Double.mantissa_eq hb
  all_goals rw [heq, hcast]
  · linarith
  · linarith
  · exact fun hodd => absurd (Nat.mul_mod_right 2 hiddenBit) hodd

/-- **What is near a double rounds to it.** -/
theorem nearestBits_eq_of_near (hrep : Representable m e) (hm : 0 < m) (hb : 0 < b)
    (h : Near m e (a / b)) : nearestBits a b = magnitudeBits m e := by
  have ha : a ≠ 0 := by
    rintro rfl
    have := h.pos hm
    simp at this
  rw [nearestBits_eq ha]
  have hquantum := quantum_spec ha (Nat.ne_of_gt hb)
  rcases h.quantum_eq hrep hquantum with heq | ⟨heq, rfl, hmin⟩
  · rw [h.mantissa_eq hb heq, heq]
    exact min_eq_left hrep.magnitudeBits_lt.le
  · have hbits : (e - 1 - minExponent).toNat * hiddenBit + 2 * hiddenBit =
        magnitudeBits hiddenBit e := by
      unfold magnitudeBits hiddenBit
      omega
    rw [h.mantissa_eq_below ha hb heq hmin, heq, hbits]
    exact min_eq_left hrep.magnitudeBits_lt.le

end Near

end BasicScript.Double
