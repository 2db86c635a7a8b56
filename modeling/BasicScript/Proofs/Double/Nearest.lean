import BasicScript.Proofs.Double.Rounding
import BasicScript.Proofs.Double.Value

/-!
# The nearest double

Rounding a fraction keeps the order and is off by half a unit in the last place at most.  Integers
of 53 binary digits are doubles themselves.  Beyond that several integers become the same double,
but none of 64 bits is moved by more than 512.

* `rounded a b` is the fraction `a / b` rounded to the mantissas of doubles.
* `abs_rounded_sub_le` and `rounded_mono`: the error of rounding, and its order.
* `toRat_nearest`: the nearest double is the rounded fraction.
* `toRat_ofInt_mono`: rounding keeps the order of integers.
* `far_and_close_of_alike`: which integers may become the same double.
-/

namespace BasicScript.Double

/-! ## Rounded fractions -/

/-- Rounding to the nearest natural number is off by a half at most. -/
theorem abs_divRoundEven_sub_le {d : Nat} (hd : 0 < d) (c : Nat) :
    |(divRoundEven c d : ℚ) - c / d| ≤ 1 / 2 := by
  have hdpos : (0 : ℚ) < d := by exact_mod_cast hd
  have hdivision := Nat.div_add_mod c d
  have hmod := Nat.mod_lt c hd
  have hclose : 2 * c ≤ 2 * (d * divRoundEven c d) + d ∧
      2 * (d * divRoundEven c d) ≤ 2 * c + d := by
    simp only [divRoundEven]
    split
    · omega
    · split
      · rw [Nat.mul_add]; omega
      · split
        · omega
        · rw [Nat.mul_add]; omega
  have hlow : (2 * c : ℚ) ≤ 2 * (d * divRoundEven c d) + d := by exact_mod_cast hclose.1
  have hhigh : (2 * (d * divRoundEven c d) : ℚ) ≤ 2 * c + d := by exact_mod_cast hclose.2
  have hlow' : (divRoundEven c d : ℚ) - 1 / 2 ≤ c / d := by
    rw [le_div_iff₀ hdpos]
    linarith
  have hhigh' : (c : ℚ) / d ≤ divRoundEven c d + 1 / 2 := by
    rw [div_le_iff₀ hdpos]
    linarith
  rw [abs_le]
  constructor <;> linarith

/-- A larger dividend has no smaller quotient. -/
theorem divRoundEven_mono {c c' d : Nat} (hd : 0 < d) (h : c ≤ c') :
    divRoundEven c d ≤ divRoundEven c' d := by
  by_contra hlt
  have hdpos : (0 : ℚ) < d := by exact_mod_cast hd
  have hsucc : (divRoundEven c' d : ℚ) + 1 ≤ divRoundEven c d := by
    exact_mod_cast Nat.succ_le_of_lt (Nat.lt_of_not_le hlt)
  have hquotients : (c : ℚ) / d ≤ c' / d := by gcongr
  have hlow := (abs_le.mp (abs_divRoundEven_sub_le hd c)).2
  have hhigh := (abs_le.mp (abs_divRoundEven_sub_le hd c')).1
  -- Both fractions are the half between the two results, and so the same.
  have hsame : (c : ℚ) / d = c' / d := by linarith
  have hnumerators : c = c' := by exact_mod_cast (div_left_inj' hdpos.ne').mp hsame
  exact hlt (Nat.le_of_eq (congrArg (divRoundEven · d) hnumerators))

/-- Scaling keeps the order of dividends. -/
theorem scaleTwo_fst_mono {a a' : Nat} (b : Nat) (e : Int) (h : a ≤ a') :
    (scaleTwo a b e).1 ≤ (scaleTwo a' b e).1 := by
  unfold scaleTwo
  split
  · rw [Nat.shiftLeft_eq, Nat.shiftLeft_eq]
    exact Nat.mul_le_mul_right _ h
  · exact h

/-- A fraction rounded to the mantissas of doubles. -/
def rounded (a b : Nat) : ℚ :=
  mantissa a b * 2 ^ quantum a b

section Rounded

variable {a a' b : Nat}

/-- The mantissa before it is rounded. -/
theorem abs_mantissa_sub_le (a : Nat) (hb : b ≠ 0) :
    |(mantissa a b : ℚ) - a / b / 2 ^ quantum a b| ≤ 1 / 2 := by
  rw [← scaleTwo_neg_div]
  exact abs_divRoundEven_sub_le (scaleTwo_snd_pos (Nat.pos_of_ne_zero hb) _ _) _

/-- A fraction that is a multiple of its unit in the last place is not rounded. -/
theorem rounded_eq {c : Nat} (hb : b ≠ 0) (h : (a / b : ℚ) = c * 2 ^ quantum a b) :
    rounded a b = a / b := by
  have hclose := abs_le.mp (abs_mantissa_sub_le a hb)
  rw [h, mul_div_cancel_right₀ _ (by positivity)] at hclose
  have hlow : (c : ℚ) < mantissa a b + 1 := by linarith
  have hhigh : (mantissa a b : ℚ) < c + 1 := by linarith
  have hmantissa : mantissa a b = c :=
    Nat.le_antisymm (Nat.le_of_lt_succ (by exact_mod_cast hhigh))
      (Nat.le_of_lt_succ (by exact_mod_cast hlow))
  rw [rounded, hmantissa, h]

/-- **Rounding is off by half a unit in the last place at most.** -/
theorem abs_rounded_sub_le (a : Nat) (hb : b ≠ 0) :
    |rounded a b - a / b| ≤ 2 ^ quantum a b / 2 := by
  have hpow : (0 : ℚ) < 2 ^ quantum a b := by positivity
  have hscaled : rounded a b - a / b =
      (mantissa a b - a / b / 2 ^ quantum a b) * 2 ^ quantum a b := by
    rw [rounded, sub_mul, div_mul_cancel₀ _ hpow.ne']
  have hbound := mul_le_mul_of_nonneg_right (abs_mantissa_sub_le a hb) hpow.le
  rw [hscaled, abs_mul, abs_of_pos hpow]
  linarith

/-- A mantissa has 53 binary digits, or it is the next power of two. -/
theorem mantissa_le (ha : a ≠ 0) (hb : b ≠ 0) : mantissa a b ≤ 2 * hiddenBit := by
  have hpow : (0 : ℚ) < 2 ^ quantum a b := by positivity
  have hlt : (a / b / 2 ^ quantum a b : ℚ) < 2 ^ 53 :=
    (div_lt_iff₀ hpow).mpr (quantum_spec ha hb).lt
  have hhigh := (abs_le.mp (abs_mantissa_sub_le a hb)).2
  have hsucc : (mantissa a b : ℚ) < (2 * hiddenBit : Nat) + 1 := by
    rw [Nat.cast_mul, cast_hiddenBit]
    push_cast
    linarith
  exact Nat.le_of_lt_succ (by exact_mod_cast hsucc)

/-- A normal mantissa has 53 binary digits. -/
theorem le_mantissa (ha : a ≠ 0) (hb : b ≠ 0) (hnormal : minExponent < quantum a b) :
    hiddenBit ≤ mantissa a b := by
  have hpow : (0 : ℚ) < 2 ^ quantum a b := by positivity
  have hge : (2 ^ 52 : ℚ) ≤ a / b / 2 ^ quantum a b :=
    (le_div_iff₀ hpow).mpr ((quantum_spec ha hb).normal hnormal)
  have hlow := (abs_le.mp (abs_mantissa_sub_le a hb)).1
  have hsucc : (hiddenBit : ℚ) < mantissa a b + 1 := by
    rw [cast_hiddenBit]
    linarith
  exact Nat.le_of_lt_succ (by exact_mod_cast hsucc)

/-- The greater of two numbers has the greater exponent. -/
theorem Quantum.le {v w : ℚ} {e f : Int} (hv : Quantum v e) (hw : Quantum w f) (h : v ≤ w) :
    e ≤ f := by
  by_contra hlt
  have hnext : (2 : ℚ) ^ (f + 1) ≤ 2 ^ e := zpow_le_zpow_right₀ one_le_two (by omega)
  have hnormal := hv.normal (lt_of_le_of_lt hw.exponent_ge (lt_of_not_ge hlt))
  have hlow := hw.lt
  rw [zpow_add_one₀ two_ne_zero] at hnext
  linarith

/-- What is rounded is not negative. -/
theorem rounded_nonneg (a b : Nat) : 0 ≤ rounded a b := by
  unfold rounded
  positivity

/-- Zero is exact. -/
theorem rounded_zero (b : Nat) : rounded 0 b = 0 := by
  have hzero : ∀ e, (scaleTwo 0 b e).1 = 0 := by
    intro e
    unfold scaleTwo
    split <;> simp
  simp [rounded, mantissa, hzero, divRoundEven]

/-- **Rounding keeps the order.** -/
theorem rounded_mono (hb : b ≠ 0) (h : a ≤ a') : rounded a b ≤ rounded a' b := by
  by_cases ha : a = 0
  · rw [ha, rounded_zero]
    exact rounded_nonneg a' b
  have ha' : a' ≠ 0 := by omega
  have hbpos : (0 : ℚ) < b := by exact_mod_cast Nat.pos_of_ne_zero hb
  have hfractions : (a : ℚ) / b ≤ a' / b := by gcongr
  have hquanta := (quantum_spec ha hb).le (quantum_spec ha' hb) hfractions
  unfold rounded
  rcases hquanta.lt_or_eq with hlt | heq
  · -- The mantissa below is at most doubled by a greater exponent.
    have hmin : minExponent < quantum a' b := lt_of_le_of_lt (quantum_spec ha hb).exponent_ge hlt
    have hhigh : (mantissa a b : ℚ) ≤ 2 * hiddenBit := by exact_mod_cast mantissa_le ha hb
    have hlow : (hiddenBit : ℚ) ≤ mantissa a' b := by exact_mod_cast le_mantissa ha' hb hmin
    calc (mantissa a b : ℚ) * 2 ^ quantum a b
        ≤ 2 * hiddenBit * 2 ^ quantum a b := by gcongr
      _ = hiddenBit * 2 ^ (quantum a b + 1) := by
        rw [zpow_add_one₀ two_ne_zero]
        ring
      _ ≤ hiddenBit * 2 ^ quantum a' b := by
        have : (2 : ℚ) ^ (quantum a b + 1) ≤ 2 ^ quantum a' b :=
          zpow_le_zpow_right₀ one_le_two hlt
        gcongr
      _ ≤ mantissa a' b * 2 ^ quantum a' b := by gcongr
  · have hmantissas : mantissa a b ≤ mantissa a' b := by
      unfold mantissa
      rw [heq, scaleTwo_snd a a']
      exact divRoundEven_mono (scaleTwo_snd_pos (Nat.pos_of_ne_zero hb) _ _)
        (scaleTwo_fst_mono b _ h)
    rw [heq]
    gcongr

/-- The double nearest to a fraction, unless that is too large, is the fraction rounded. -/
theorem toRat_nearest (negative : Bool) (ha : a ≠ 0) (hb : b ≠ 0)
    (hfinite : (quantum a b - minExponent).toNat * hiddenBit + mantissa a b < infinityBits) :
    isFinite (nearest negative a b) = true ∧
      toRat (nearest negative a b) = if negative then -rounded a b else rounded a b := by
  have hbits : nearestBits a b = (quantum a b - minExponent).toNat * hiddenBit + mantissa a b := by
    rw [nearestBits_eq ha]
    exact Nat.min_eq_left hfinite.le
  have hmin := (quantum_spec ha hb).exponent_ge
  have hle := mantissa_le ha hb
  have hge := le_mantissa ha hb
  rw [nearest, hbits]
  refine ⟨isFinite_ofSignBits hfinite, ?_⟩
  obtain ⟨m, e, hview, hrep, hmagnitude⟩ := view_ofSignBits negative hfinite
  have hvalue : (m : ℚ) * 2 ^ e = rounded a b := by
    have hlt := hrep.lt
    have hexponent := hrep.exponent_ge
    have hnormal := hrep.normal
    unfold magnitudeBits at hmagnitude
    unfold rounded
    -- A mantissa that was rounded up to the next power of two has the next exponent.
    have hcases : (e = quantum a b ∧ m = mantissa a b) ∨
        (e = quantum a b + 1 ∧ m = hiddenBit ∧ mantissa a b = 2 * hiddenBit) := by
      unfold hiddenBit at *
      omega
    rcases hcases with ⟨rfl, rfl⟩ | ⟨rfl, rfl, hdouble⟩
    · rfl
    · rw [hdouble, zpow_add_one₀ two_ne_zero]
      push_cast
      ring
  rw [toRat, hview, View.toRat, hvalue]

end Rounded

/-! ## Integers as doubles -/

section Integer

variable {a : Nat}

/-- An integer is no subnormal double. -/
theorem minExponent_lt_quantum (ha : a ≠ 0) : minExponent < quantum a 1 := by
  have hspec := quantum_spec ha one_ne_zero
  rcases hspec.exponent_ge.lt_or_eq with hlt | heq
  · exact hlt
  · have hlt := hspec.lt
    have hone : (1 : ℚ) ≤ a / (1 : Nat) := by
      rw [Nat.cast_one, div_one]
      exact_mod_cast Nat.pos_of_ne_zero ha
    have hsmall : (2 : ℚ) ^ minExponent ≤ 2 ^ (-53 : Int) :=
      zpow_le_zpow_right₀ one_le_two (by decide)
    rw [← heq] at hlt
    norm_num at hsmall
    linarith

/-- A number of 53 digits and a few more is rounded by those few at most. -/
theorem quantum_le {k : Nat} (ha : a ≠ 0) (h : a < 2 ^ (53 + k)) : quantum a 1 ≤ k := by
  have hnormal := (quantum_spec ha one_ne_zero).normal (minExponent_lt_quantum ha)
  rw [Nat.cast_one, div_one] at hnormal
  have hlt : (a : ℚ) < 2 ^ 52 * 2 ^ ((k : Int) + 1) := by
    calc (a : ℚ) < 2 ^ (53 + k) := by exact_mod_cast h
      _ = 2 ^ 52 * 2 ^ ((k : Int) + 1) := by
        rw [zpow_add_one₀ two_ne_zero, zpow_natCast]
        ring
  have hpowers : (2 : ℚ) ^ quantum a 1 < 2 ^ ((k : Int) + 1) := by linarith
  have := (zpow_lt_zpow_iff_right₀ one_lt_two).mp hpowers
  omega

/-- A power of two is a double. -/
theorem rounded_two_pow (k : Nat) : rounded (2 ^ k) 1 = 2 ^ k := by
  have ha : (2 : Nat) ^ k ≠ 0 := by positivity
  have hspec := quantum_spec ha one_ne_zero
  have hlow := hspec.normal (minExponent_lt_quantum ha)
  have hhigh := hspec.lt
  have hpow : ((2 ^ k : Nat) : ℚ) / (1 : Nat) = 2 ^ (k : Int) := by
    push_cast
    rw [div_one, zpow_natCast]
  have hmul : ∀ i : Nat, (2 : ℚ) ^ i * 2 ^ quantum (2 ^ k) 1 = 2 ^ (i + quantum (2 ^ k) 1) := by
    intro i
    rw [zpow_add₀ two_ne_zero, zpow_natCast]
  rw [hpow, hmul, zpow_le_zpow_iff_right₀ one_lt_two] at hlow
  rw [hpow, hmul, zpow_lt_zpow_iff_right₀ one_lt_two] at hhigh
  have hexact : ((2 ^ k : Nat) : ℚ) / (1 : Nat) = (2 ^ 52 : Nat) * 2 ^ quantum (2 ^ k) 1 := by
    rw [hpow, Nat.cast_pow, Nat.cast_ofNat, hmul]
    congr 1
    omega
  rw [rounded_eq one_ne_zero hexact, hpow, zpow_natCast]

/-- An integer of 53 binary digits is a double. -/
theorem rounded_of_lt (h : a < 2 ^ 53) : rounded a 1 = a := by
  by_cases ha : a = 0
  · rw [ha, rounded_zero, Nat.cast_zero]
  have hquantum := quantum_le (k := 0) ha h
  obtain ⟨j, hj⟩ := Int.eq_ofNat_of_zero_le (show 0 ≤ -quantum a 1 by omega)
  have hexact : (a : ℚ) / (1 : Nat) = (a * 2 ^ j : Nat) * 2 ^ quantum a 1 := by
    rw [show quantum a 1 = -(j : Int) by omega, zpow_neg, zpow_natCast]
    push_cast
    field_simp
  rw [rounded_eq one_ne_zero hexact, Nat.cast_one, div_one]

/-- An integer of 64 bits is rounded by 512 at most. -/
theorem abs_rounded_sub_le_of_le (h : a ≤ 2 ^ 63) : |rounded a 1 - a| ≤ 512 := by
  rcases h.lt_or_eq with hlt | rfl
  · by_cases ha : a = 0
    · rw [ha, rounded_zero]
      norm_num
    have hquantum : (2 : ℚ) ^ quantum a 1 ≤ 2 ^ (10 : Int) :=
      zpow_le_zpow_right₀ one_le_two (quantum_le (k := 10) ha hlt)
    have herror := abs_rounded_sub_le a one_ne_zero
    rw [Nat.cast_one, div_one] at herror
    norm_num at hquantum
    linarith
  · rw [rounded_two_pow]
    norm_num

variable {n m : Int}

/-- The double of an integer is the integer rounded. -/
theorem toRat_ofInt (h : n.natAbs < 2 ^ 64) :
    isFinite (ofInt n) = true ∧
      toRat (ofInt n) = if n < 0 then -rounded n.natAbs 1 else rounded n.natAbs 1 := by
  by_cases hn : n = 0
  · subst hn
    have hview : view (ofInt 0) = .finite false 0 minExponent := rfl
    simp [isFinite, toRat, hview, View.toRat, rounded_zero]
  · have ha : n.natAbs ≠ 0 := by omega
    have hquantum := quantum_le (k := 11) ha h
    have hmantissa := mantissa_le ha one_ne_zero
    have hfinite : (quantum n.natAbs 1 - minExponent).toNat * hiddenBit + mantissa n.natAbs 1 <
        infinityBits := by
      unfold infinityBits hiddenBit minExponent at *
      omega
    have hnearest := toRat_nearest (n < 0) ha one_ne_zero hfinite
    simp only [decide_eq_true_eq] at hnearest
    exact hnearest

/-- Rounding integers keeps their order, though different ones may become the same double. -/
theorem toRat_ofInt_mono (hm : m.natAbs < 2 ^ 64) (hn : n.natAbs < 2 ^ 64) (h : m ≤ n) :
    toRat (ofInt m) ≤ toRat (ofInt n) := by
  rw [(toRat_ofInt hm).2, (toRat_ofInt hn).2]
  split
  · split
    · exact neg_le_neg (rounded_mono one_ne_zero (by omega))
    · exact (neg_nonpos_of_nonneg (rounded_nonneg ..)).trans (rounded_nonneg ..)
  · rw [if_neg (by omega)]
    exact rounded_mono one_ne_zero (by omega)

/-- The double of an integer has the rounded absolute value. -/
theorem abs_toRat_ofInt (h : n.natAbs < 2 ^ 64) : |toRat (ofInt n)| = rounded n.natAbs 1 := by
  rw [(toRat_ofInt h).2]
  split
  · rw [abs_neg, abs_of_nonneg (rounded_nonneg ..)]
  · rw [abs_of_nonneg (rounded_nonneg ..)]

/-- The sign has no part in the error. -/
theorem abs_toRat_ofInt_sub (h : n.natAbs < 2 ^ 64) :
    |toRat (ofInt n) - n| = |rounded n.natAbs 1 - n.natAbs| := by
  rw [(toRat_ofInt h).2, Nat.cast_natAbs, Int.cast_abs]
  split
  · next hn =>
    rw [abs_of_neg (show (n : ℚ) < 0 by exact_mod_cast hn), ← abs_neg]
    ring_nf
  · next hn => rw [abs_of_nonneg (show (0 : ℚ) ≤ n by exact_mod_cast not_lt.mp hn)]

/-- An integer of 53 digits becomes a double without loss. -/
theorem toRat_ofInt_of_lt (h : n.natAbs < 2 ^ 53) : toRat (ofInt n) = n := by
  have herror := abs_toRat_ofInt_sub (n := n) (by omega)
  rw [rounded_of_lt h, sub_self, abs_zero, abs_eq_zero] at herror
  exact sub_eq_zero.mp herror

/-- **Different integers of 64 bits that become the same double** have more than 53 binary digits
or are `2 ^ 53`, and there are at most 1024 from one to the other. -/
theorem far_and_close_of_alike (hm : m.natAbs ≤ 2 ^ 63) (hn : n.natAbs ≤ 2 ^ 63) (hne : m ≠ n)
    (halike : toRat (ofInt m) = toRat (ofInt n)) :
    2 ^ 53 ≤ m.natAbs ∧ (m - n).natAbs ≤ 1024 := by
  have hm' : m.natAbs < 2 ^ 64 := by omega
  have hn' : n.natAbs < 2 ^ 64 := by omega
  constructor
  · by_contra hlt
    have hsmall : m.natAbs < 2 ^ 53 := Nat.lt_of_not_le hlt
    by_cases hboth : n.natAbs < 2 ^ 53
    · rw [toRat_ofInt_of_lt hsmall, toRat_ofInt_of_lt hboth] at halike
      exact hne (by exact_mod_cast halike)
    · -- The double of `n` is beyond that of `m`.
      have hge := rounded_mono one_ne_zero (Nat.le_of_not_lt hboth)
      rw [rounded_two_pow, ← abs_toRat_ofInt hn', ← halike, abs_toRat_ofInt hm',
        rounded_of_lt hsmall] at hge
      exact hlt (by exact_mod_cast hge)
  · have hboth : |(m - n : ℚ)| ≤ 1024 := by
      calc |(m - n : ℚ)| = |(m - toRat (ofInt m)) + (toRat (ofInt n) - n)| := by
            rw [halike]
            ring_nf
        _ ≤ |m - toRat (ofInt m)| + |toRat (ofInt n) - n| := abs_add_le _ _
        _ ≤ 512 + 512 := by
          rw [abs_sub_comm, abs_toRat_ofInt_sub hm', abs_toRat_ofInt_sub hn']
          exact add_le_add (abs_rounded_sub_le_of_le hm) (abs_rounded_sub_le_of_le hn)
        _ = 1024 := by norm_num
    have hint : |m - n| ≤ 1024 := by exact_mod_cast hboth
    rw [Int.abs_eq_natAbs] at hint
    exact_mod_cast hint

end Integer

end BasicScript.Double
