import BasicScript.Json.Basic
import BasicScript.Proofs.Double.Rounding

/-!
# The shortest decimal reads back

The decimal that `shortest` finds for a finite double lies in the interval of numbers that round to
this double, so reading it gives the double back.  The search always ends with a decimal: seventeen
digits put the points of the grid closer together than the interval is wide.

* `magnitude_spec`: the estimate of the decimal exponent is never more than one off.
* `exists_pick?`: seventeen digits suffice.
* `shortest_spec`: the shortest decimal lies in the interval of its double.
* `Numeral.ofFloat?_spec`: the numeral of a finite double reads back as this double.
-/

namespace BasicScript

namespace Double

/-! ## Decimals -/

/-- The number that a decimal stands for. -/
def Decimal.value (d : Decimal) : ℚ :=
  d.digits * 10 ^ d.exponent

/-- A decimal without zeros at the end of its digits, and with one form of zero. -/
def Decimal.Normal (d : Decimal) : Prop :=
  d.digits % 10 ≠ 0 ∨ d = ⟨0, 0⟩

/-- Zeros at the end of the digits go into the exponent. -/
theorem Decimal.value_dropZeros (fuel : Nat) (d : Decimal) :
    (d.dropZeros fuel).value = d.value := by
  induction fuel generalizing d with
  | zero => rfl
  | succ fuel ih =>
    rw [dropZeros]
    split
    · next hzero =>
      rw [ih]
      have hdigits : (d.digits : ℚ) = 10 * (d.digits / 10 : Nat) := by
        exact_mod_cast (Nat.mul_div_cancel' (Nat.dvd_of_mod_eq_zero hzero.2)).symm
      simp only [value]
      rw [hdigits, zpow_add_one₀ (by norm_num)]
      ring
    · rfl

/-- One step for each digit but the first takes all zeros away. -/
theorem Decimal.dropZeros_normal {fuel : Nat} {d : Decimal} (hne : d.digits ≠ 0)
    (hlt : d.digits < 10 ^ (fuel + 1)) : (d.dropZeros fuel).digits % 10 ≠ 0 := by
  induction fuel generalizing d with
  | zero =>
    rw [dropZeros]
    omega
  | succ fuel ih =>
    rw [dropZeros]
    split
    · next hzero =>
      have hpow : 10 ^ (fuel + 1 + 1) = 10 ^ (fuel + 1) * 10 := rfl
      exact ih (show d.digits / 10 ≠ 0 by omega) (show d.digits / 10 < 10 ^ (fuel + 1) by omega)
    · next hnonzero => exact fun hmod => hnonzero ⟨hne, hmod⟩

/-- The two factors of a power of ten have it as their quotient. -/
theorem powTen_div (p : Int) : ((powTen p).1 : ℚ) / ((powTen p).2 : ℚ) = 10 ^ p := by
  unfold powTen
  split
  · next hp =>
    obtain ⟨n, rfl⟩ := Int.eq_ofNat_of_zero_le hp
    simp
  · next hp =>
    obtain ⟨n, hn⟩ := Int.eq_ofNat_of_zero_le (show 0 ≤ -p by omega)
    obtain rfl : p = -(n : Int) := by omega
    simp

/-- The first factor is positive. -/
theorem powTen_fst_pos (p : Int) : 0 < (powTen p).1 := by
  unfold powTen
  split
  · exact Nat.pow_pos (by decide)
  · exact Nat.one_pos

theorem powTen_snd_pos (p : Int) : 0 < (powTen p).2 := by
  unfold powTen
  split
  · exact Nat.one_pos
  · exact Nat.pow_pos (by decide)

/-! ## The neighbourhood as fractions -/

namespace Neighbourhood

/-- A quarter of `2 ^ e` is the unit of the neighbourhood of `m * 2 ^ e`. -/
theorem scaled_div (n : Nat) (e : Int) :
    ((scaleTwo n 1 (e - 2)).1 : ℚ) / ((scaleTwo 1 1 (e - 2)).2 : ℚ) = n / 4 * 2 ^ e := by
  rw [scaleTwo_snd 1 n, scaleTwo_div, zpow_sub₀ two_ne_zero]
  ring

variable (m : Nat) (e : Int)

/-- The neighbourhood of a double has a common denominator. -/
theorem denominator_pos : (0 : ℚ) < (neighbourhood m e).denominator := by
  exact_mod_cast scaleTwo_snd_pos Nat.one_pos 1 (e - 2)

/-- The middle of the neighbourhood is the double itself. -/
theorem value_div :
    ((neighbourhood m e).value : ℚ) / (neighbourhood m e).denominator = m * 2 ^ e := by
  refine (scaled_div (4 * m) e).trans ?_
  push_cast
  ring

/-- The neighbourhood ends half a step above the double. -/
theorem high_div :
    ((neighbourhood m e).high : ℚ) / (neighbourhood m e).denominator = (m + 1 / 2) * 2 ^ e := by
  refine (scaled_div (4 * m + 2) e).trans ?_
  push_cast
  ring

variable {m} in
/-- The neighbourhood begins half a step below the double, or a quarter below a power of two. -/
theorem low_div (hm : 0 < m) :
    ((neighbourhood m e).low : ℚ) / (neighbourhood m e).denominator =
      (m - reach m e) * 2 ^ e := by
  refine (scaled_div _ e).trans ?_
  unfold reach
  split
  · rw [Nat.cast_sub (by omega)]
    push_cast
    ring
  · rw [Nat.cast_sub (by omega)]
    push_cast
    ring

variable {m e}

/-- A decimal passes the test of the neighbourhood exactly when it is near the double. -/
theorem has_iff (hm : 0 < m) (digits : Nat) (p : Int) :
    (neighbourhood m e).has digits p = true ↔ Near m e (digits * 10 ^ p) := by
  have hden := denominator_pos m e
  have hsnd : (0 : ℚ) < (powTen p).2 := by exact_mod_cast powTen_snd_pos p
  have hscale : ∀ k : Nat, (k : ℚ) / (neighbourhood m e).denominator < digits * 10 ^ p ↔
      k * (powTen p).2 < digits * (powTen p).1 * (neighbourhood m e).denominator := by
    intro k
    rw [← powTen_div, ← mul_div_assoc, div_lt_div_iff₀ hden hsnd]
    exact_mod_cast Iff.rfl
  have hscale' : ∀ k : Nat, digits * 10 ^ p < (k : ℚ) / (neighbourhood m e).denominator ↔
      digits * (powTen p).1 * (neighbourhood m e).denominator < k * (powTen p).2 := by
    intro k
    rw [← powTen_div, ← mul_div_assoc, div_lt_div_iff₀ hsnd hden]
    exact_mod_cast Iff.rfl
  have hclosed : (neighbourhood m e).closed = true ↔ m % 2 = 0 := decide_eq_true_iff
  unfold has
  dsimp only
  split
  · next heven =>
    rw [Bool.and_eq_true, decide_eq_true_iff, decide_eq_true_iff, ← not_lt, ← not_lt, ← hscale,
      ← hscale', low_div e hm, high_div, not_lt, not_lt]
    exact ⟨fun h => ⟨h.1, h.2, fun hodd => absurd (hclosed.mp heven) hodd⟩,
      fun h => ⟨h.low, h.high⟩⟩
  · next hodd =>
    rw [Bool.and_eq_true, decide_eq_true_iff, decide_eq_true_iff, ← hscale, ← hscale',
      low_div e hm, high_div]
    exact ⟨fun h => ⟨h.1.le, h.2.le, fun _ => h⟩, fun h => h.inside fun heven =>
      hodd (hclosed.mpr heven)⟩

/-- The point of the grid below the double. -/
theorem onGrid_spec (p : Int) :
    (((neighbourhood m e).onGrid p).1 : ℚ) * 10 ^ p ≤ m * 2 ^ e ∧
      m * 2 ^ e < ((((neighbourhood m e).onGrid p).1 : ℚ) + 1) * 10 ^ p := by
  have hden := denominator_pos m e
  have hfst : (0 : ℚ) < (powTen p).1 := by exact_mod_cast powTen_fst_pos p
  have hsnd : (0 : ℚ) < (powTen p).2 := by exact_mod_cast powTen_snd_pos p
  have hbottom : 0 < (neighbourhood m e).denominator * (powTen p).1 := by
    exact_mod_cast mul_pos hden hfst
  have hle := Nat.div_mul_le_self ((neighbourhood m e).value * (powTen p).2)
    ((neighbourhood m e).denominator * (powTen p).1)
  have hlt := Nat.lt_div_mul_add (a := (neighbourhood m e).value * (powTen p).2) hbottom
  unfold onGrid
  dsimp only
  generalize (neighbourhood m e).value * (powTen p).2 /
    ((neighbourhood m e).denominator * (powTen p).1) = q at *
  rw [← powTen_div, ← value_div, ← mul_div_assoc, ← mul_div_assoc, div_le_div_iff₀ hsnd hden,
    div_lt_div_iff₀ hden hsnd]
  constructor
  · have : ((q * ((neighbourhood m e).denominator * (powTen p).1) : Nat) : ℚ) ≤
        ((neighbourhood m e).value * (powTen p).2 : Nat) := by exact_mod_cast hle
    push_cast at this
    linarith
  · have : (((neighbourhood m e).value * (powTen p).2 : Nat) : ℚ) <
        (q * ((neighbourhood m e).denominator * (powTen p).1) +
          (neighbourhood m e).denominator * (powTen p).1 : Nat) := by exact_mod_cast hlt
    push_cast at this
    linarith

/-- The test for a power of ten is a comparison of fractions. -/
theorem isBelow_iff (k : Int) :
    (neighbourhood m e).isBelow k = true ↔ (m * 2 ^ e : ℚ) < 10 ^ k := by
  have hden := denominator_pos m e
  have hsnd : (0 : ℚ) < (powTen k).2 := by exact_mod_cast powTen_snd_pos k
  unfold isBelow
  dsimp only
  rw [decide_eq_true_iff, ← powTen_div, ← value_div, div_lt_div_iff₀ hden hsnd]
  exact_mod_cast Iff.rfl

/-- What is picked passes the test, and is one of the two neighbours. -/
theorem pick?_spec {n : Neighbourhood} {tie : Tie} {p : Int} {d : Decimal}
    (h : n.pick? tie p = some d) :
    d.exponent = p ∧ d.digits ≤ (n.onGrid p).1 + 1 ∧ n.has d.digits p = true := by
  simp only [pick?] at h
  split at h
  · next hbelow habove =>
    have hside : ∀ upward : Bool,
        (if upward then (n.onGrid p).1 + 1 else (n.onGrid p).1) ≤ (n.onGrid p).1 + 1 ∧
        n.has (if upward then (n.onGrid p).1 + 1 else (n.onGrid p).1) p = true := by
      intro upward
      cases upward
      · exact ⟨Nat.le_succ _, hbelow⟩
      · exact ⟨Nat.le_refl _, habove⟩
    cases h
    exact ⟨rfl, hside _⟩
  · next hbelow _ =>
    cases h
    exact ⟨rfl, by dsimp only; omega, hbelow⟩
  · next _ habove =>
    cases h
    exact ⟨rfl, Nat.le_refl _, habove⟩
  · cases h

/-- A decimal is picked when one of the two neighbours passes the test. -/
theorem pick?_isSome {n : Neighbourhood} (tie : Tie) {p : Int}
    (h : n.has (n.onGrid p).1 p = true ∨ n.has ((n.onGrid p).1 + 1) p = true) :
    (n.pick? tie p).isSome = true := by
  simp only [pick?]
  split
  · rfl
  · rfl
  · rfl
  · next hbelow habove =>
    rw [hbelow, habove] at h
    simp at h

/-! ## The decimal exponent -/

/-- The decimal exponent that is read off the binary exponent `l` is less than two off: the check
that `10 ^ (guess - 2) ≤ 2 ^ (l - 1)` and `2 ^ (l + 1) ≤ 10 ^ (guess + 2)`. -/
def estimateHolds (l : Int) : Bool :=
  let guess := l * 30103 / 100000
  let below := powTen (guess - 2)
  let above := powTen (guess + 2)
  let low := scaleTwo 1 1 (l - 1)
  let high := scaleTwo 1 1 (l + 1)
  below.1 * low.2 ≤ low.1 * below.2 && high.1 * above.2 ≤ above.1 * high.2

/-- The estimate has been checked for all exponents of doubles. -/
theorem estimateHolds_of_range {l : Int} (hlow : -1075 ≤ l) (hhigh : l < 1025) :
    estimateHolds l = true := by
  have hall : ((List.range 2100).all fun (i : Nat) => estimateHolds ((i : Int) - 1075)) = true := by
    decide +kernel
  have hl := List.all_eq_true.mp hall (l + 1075).toNat (List.mem_range.mpr (by omega))
  rwa [show (((l + 1075).toNat : Nat) : Int) - 1075 = l by omega] at hl

/-- The estimate of a logarithm is off by two at most. -/
theorem estimate_spec {l : Int} (h : estimateHolds l = true) :
    (10 : ℚ) ^ (l * 30103 / 100000 - 2) ≤ 2 ^ (l - 1) ∧
      (2 : ℚ) ^ (l + 1) ≤ 10 ^ (l * 30103 / 100000 + 2) := by
  have hten : ∀ p, (0 : ℚ) < (powTen p).2 := fun p => by exact_mod_cast powTen_snd_pos p
  have htwo : ∀ k, (0 : ℚ) < (scaleTwo 1 1 k).2 := fun k => by
    exact_mod_cast scaleTwo_snd_pos Nat.one_pos 1 k
  have hpow : ∀ k : Int, ((scaleTwo 1 1 k).1 : ℚ) / (scaleTwo 1 1 k).2 = 2 ^ k := fun k => by
    rw [scaleTwo_div]
    norm_num
  simp only [estimateHolds, Bool.and_eq_true, decide_eq_true_iff] at h
  rw [← powTen_div, ← powTen_div, ← hpow, ← hpow, div_le_div_iff₀ (hten _) (htwo _),
    div_le_div_iff₀ (htwo _) (hten _)]
  exact ⟨by exact_mod_cast h.1, by exact_mod_cast h.2⟩

/-- The double as a fraction lies between the least and the first too large power of two. -/
theorem value_range (hrep : Representable m e) (hm : 0 < m) :
    (2 : ℚ) ^ (-1074 : Int) ≤ m * 2 ^ e ∧ (m * 2 ^ e : ℚ) < 2 ^ (1024 : Int) := by
  have hone : (1 : ℚ) ≤ m := by exact_mod_cast hm
  have hlt : (m : ℚ) < 2 ^ (53 : Int) := hrep.cast_lt
  have hpow : (0 : ℚ) < 2 ^ e := by positivity
  have hlow : (2 : ℚ) ^ (-1074 : Int) ≤ 2 ^ e :=
    zpow_le_zpow_right₀ one_le_two hrep.exponent_ge
  have hhigh : (2 : ℚ) ^ e ≤ 2 ^ (971 : Int) := zpow_le_zpow_right₀ one_le_two hrep.exponent_le
  constructor
  · calc (2 : ℚ) ^ (-1074 : Int) ≤ 2 ^ e := hlow
      _ ≤ m * 2 ^ e := le_mul_of_one_le_left hpow.le hone
  · calc (m * 2 ^ e : ℚ) < 2 ^ (53 : Int) * 2 ^ e := mul_lt_mul_of_pos_right hlt hpow
      _ ≤ 2 ^ (53 : Int) * 2 ^ (971 : Int) := mul_le_mul_of_nonneg_left hhigh (by positivity)
      _ = 2 ^ (1024 : Int) := by rw [← zpow_add₀ two_ne_zero]; rfl

/-- The first exponent near the guess that is too large comes right after one that is not. -/
theorem isBelow_firstNear (n : Neighbourhood) (guess : Int)
    (hnot : n.isBelow (guess - 2) = false) (hyes : n.isBelow (guess + 2) = true) :
    let k := ([guess - 1, guess, guess + 1].find? n.isBelow).getD (guess + 2)
    n.isBelow (k - 1) = false ∧ n.isBelow k = true := by
  have hpred : guess - 1 - 1 = guess - 2 := by omega
  have hsucc : guess + 1 - 1 = guess := by omega
  have hsucc' : guess + 2 - 1 = guess + 1 := by omega
  cases hfirst : n.isBelow (guess - 1) with
  | true => simp [hpred, hfirst, hnot]
  | false =>
    cases hsecond : n.isBelow guess with
    | true => simp [hfirst, hsecond]
    | false =>
      cases hthird : n.isBelow (guess + 1) with
      | true => simp [hfirst, hsucc, hsecond, hthird]
      | false => simp [hfirst, hsecond, hsucc', hthird, hyes]

/-- The magnitude of a double is the number of its digits before the point. -/
theorem magnitude_spec (hrep : Representable m e) (hm : 0 < m) :
    (10 : ℚ) ^ ((neighbourhood m e).magnitude - 1) ≤ m * 2 ^ e ∧
      (m * 2 ^ e : ℚ) < 10 ^ (neighbourhood m e).magnitude := by
  obtain ⟨hleast, hgreatest⟩ := value_range hrep hm
  have hden : (neighbourhood m e).denominator ≠ 0 := by
    exact_mod_cast (denominator_pos m e).ne'
  have hvalue : (neighbourhood m e).value ≠ 0 := by
    intro hzero
    have hdiv := value_div m e
    rw [hzero, Nat.cast_zero, zero_div] at hdiv
    rw [← hdiv] at hleast
    exact absurd hleast (not_le.mpr (by positivity))
  obtain ⟨hlow, hhigh⟩ := zpow_log2_lt_div hvalue hden
  rw [value_div] at hlow hhigh
  generalize hlog : ((neighbourhood m e).value.log2 : Int) -
    (neighbourhood m e).denominator.log2 = l at hlow hhigh
  -- the binary exponent of a double is in the range of the check
  have hl : -1074 < l + 1 :=
    (zpow_lt_zpow_iff_right₀ one_lt_two).mp (hleast.trans_lt hhigh)
  have hl' : l - 1 < 1024 :=
    (zpow_lt_zpow_iff_right₀ one_lt_two).mp (hlow.trans hgreatest)
  obtain ⟨hbelow, habove⟩ := estimate_spec (estimateHolds_of_range (l := l) (by omega) (by omega))
  have hnot : (neighbourhood m e).isBelow (l * 30103 / 100000 - 2) = false := by
    rw [← Bool.not_eq_true, isBelow_iff, not_lt]
    exact hbelow.trans hlow.le
  have hyes : (neighbourhood m e).isBelow (l * 30103 / 100000 + 2) = true := by
    rw [isBelow_iff]
    exact hhigh.trans_le habove
  rw [← not_lt, ← isBelow_iff, ← isBelow_iff, Bool.not_eq_true]
  simp only [magnitude, hlog]
  exact isBelow_firstNear _ _ hnot hyes

/-! ## Seventeen digits suffice -/

/-- On the grid of seventeen digits one of the two neighbours of the double reads back. -/
theorem exists_pick? (hrep : Representable m e) (hm : 0 < m) (tie : Tie) :
    ((neighbourhood m e).pick? tie ((neighbourhood m e).magnitude - 17)).isSome = true := by
  obtain ⟨hlow, -⟩ := magnitude_spec hrep hm
  generalize (neighbourhood m e).magnitude = k at *
  obtain ⟨hbelow, habove⟩ := onGrid_spec (m := m) (e := e) (k - 17)
  have hpow : (0 : ℚ) < 2 ^ e := by positivity
  have hgrid : (0 : ℚ) < 10 ^ (k - 17) := by positivity
  -- half a step of the grid is less than the interval reaches
  have hstep : (10 : ℚ) ^ (k - 17) * 10 ^ 16 ≤ m * 2 ^ e := by
    calc (10 : ℚ) ^ (k - 17) * 10 ^ 16 = 10 ^ (k - 1) := by
          rw [← zpow_natCast, ← zpow_add₀ (by norm_num)]
          congr 1
          push_cast
          ring
      _ ≤ m * 2 ^ e := hlow
  have hhalf : (10 : ℚ) ^ (k - 17) / 2 < reach m e * 2 ^ e := by
    unfold reach
    split
    · next hpower =>
      rw [hpower.1] at hstep
      norm_num [hiddenBit] at hstep
      linarith
    · have hlt := hrep.cast_lt
      nlinarith
  have hhalf' : (10 : ℚ) ^ (k - 17) / 2 < 1 / 2 * 2 ^ e :=
    hhalf.trans_le (mul_le_mul_of_nonneg_right (reach_le m e) hpow.le)
  apply pick?_isSome
  generalize ((neighbourhood m e).onGrid (k - 17)).1 = q at *
  rw [has_iff hm, has_iff hm]
  rcases le_total ((m : ℚ) * 2 ^ e - q * 10 ^ (k - 17)) (10 ^ (k - 17) / 2) with hnear | hfar
  · left
    have hlt : (m - reach m e) * 2 ^ e < (q : ℚ) * 10 ^ (k - 17) := by linarith
    have hgt : (q : ℚ) * 10 ^ (k - 17) < (m + 1 / 2) * 2 ^ e := by linarith
    exact ⟨hlt.le, hgt.le, fun _ => ⟨hlt, hgt⟩⟩
  · right
    push_cast
    have hlt : (m - reach m e) * 2 ^ e < ((q : ℚ) + 1) * 10 ^ (k - 17) := by linarith
    have hgt : ((q : ℚ) + 1) * 10 ^ (k - 17) < (m + 1 / 2) * 2 ^ e := by linarith
    exact ⟨hlt.le, hgt.le, fun _ => ⟨hlt, hgt⟩⟩

/-- Up to seventeen digits before the point of the grid. -/
theorem onGrid_lt (hrep : Representable m e) (hm : 0 < m) {i : Nat} (hi : i < 17) :
    ((neighbourhood m e).onGrid ((neighbourhood m e).magnitude - (i : Int) - 1)).1 < 10 ^ 17 := by
  obtain ⟨-, hhigh⟩ := magnitude_spec hrep hm
  generalize (neighbourhood m e).magnitude = k at *
  obtain ⟨hbelow, -⟩ := onGrid_spec (m := m) (e := e) (k - (i : Int) - 1)
  have hgrid : (0 : ℚ) < 10 ^ (k - (i : Int) - 1) := by positivity
  generalize ((neighbourhood m e).onGrid (k - (i : Int) - 1)).1 = q at *
  have hscale : (10 : ℚ) ^ k = 10 ^ (i + 1) * 10 ^ (k - (i : Int) - 1) := by
    rw [← zpow_natCast, ← zpow_add₀ (by norm_num)]
    congr 1
    push_cast
    ring
  have hlt : (q : ℚ) < 10 ^ (i + 1) := by
    rw [hscale] at hhigh
    exact lt_of_mul_lt_mul_right (hbelow.trans_lt hhigh) hgrid.le
  calc q < 10 ^ (i + 1) := by exact_mod_cast hlt
    _ ≤ 10 ^ 17 := Nat.pow_le_pow_right (by decide) (by omega)

end Neighbourhood

/-- The shortest decimal of a positive double lies in the interval of the double, and has no zeros
at its end. -/
theorem shortest_spec {m : Nat} {e : Int} (hrep : Representable m e) (hm : 0 < m) (tie : Tie) :
    Near m e (shortest tie m e).value ∧ (shortest tie m e).digits % 10 ≠ 0 := by
  have hsome : ((List.range 17).findSome? fun (i : Nat) => (neighbourhood m e).pick? tie
      ((neighbourhood m e).magnitude - (i : Int) - 1)).isSome = true := by
    rw [List.findSome?_isSome_iff]
    refine ⟨16, by decide, ?_⟩
    have hpick := Neighbourhood.exists_pick? hrep hm tie
    rwa [show (neighbourhood m e).magnitude - 17 =
      (neighbourhood m e).magnitude - ((16 : Nat) : Int) - 1 by omega] at hpick
  obtain ⟨d, hfound⟩ := Option.isSome_iff_exists.mp hsome
  obtain ⟨i, hi, hpick⟩ := List.exists_of_findSome?_eq_some hfound
  obtain ⟨hexponent, hdigits, hhas⟩ := Neighbourhood.pick?_spec hpick
  rw [Neighbourhood.has_iff hm, ← hexponent] at hhas
  have hne : d.digits ≠ 0 := by
    intro hzero
    have hpos := hhas.pos hm
    simp [hzero] at hpos
  have hlt := Neighbourhood.onGrid_lt hrep hm (List.mem_range.mp hi)
  simp only [shortest, if_neg (Nat.ne_of_gt hm), hfound, Option.getD_some]
  constructor
  · rw [Decimal.value_dropZeros]
    exact hhas
  · exact Decimal.dropZeros_normal hne (by omega)

/-- The digits of the shortest decimal end with no zero. -/
theorem shortest_normal {m : Nat} {e : Int} (hrep : Representable m e) (tie : Tie) :
    (shortest tie m e).Normal := by
  by_cases hm : m = 0
  · right
    simp [shortest, hm]
  · left
    exact (shortest_spec hrep (Nat.pos_of_ne_zero hm) tie).2

/-! ## Reading the decimal back -/

/-- A decimal lies between the powers of ten of its magnitude. -/
theorem Decimal.value_range {d : Decimal} (hd : d.digits ≠ 0) :
    (10 : ℚ) ^ (d.exponent + (digitChars d.digits).length - 1) ≤ d.value ∧
      d.value < 10 ^ (d.exponent + (digitChars d.digits).length) := by
  have hpow : (0 : ℚ) < 10 ^ d.exponent := by positivity
  have hpos : 0 < (digitChars d.digits).length := Nat.length_toDigits_pos
  have hlt : d.digits < 10 ^ (digitChars d.digits).length :=
    (Nat.length_toDigits_le_iff (by decide) hpos).mp (Nat.le_refl _)
  have hle : 10 ^ ((digitChars d.digits).length - 1) ≤ d.digits := by
    rcases Nat.eq_or_lt_of_le (show 1 ≤ (digitChars d.digits).length from hpos) with hone | hmany
    · rw [← hone]
      exact Nat.pos_of_ne_zero hd
    · rw [← Nat.not_lt, ← Nat.length_toDigits_le_iff (by decide) (by omega)]
      exact Nat.not_le.mpr (Nat.sub_one_lt_of_lt hpos)
  generalize hlength : (digitChars d.digits).length = n at *
  obtain ⟨n, rfl⟩ := Nat.exists_eq_add_of_le' hpos
  constructor
  · calc (10 : ℚ) ^ (d.exponent + ((n + 1 : Nat) : Int) - 1) = 10 ^ n * 10 ^ d.exponent := by
          rw [← zpow_natCast, ← zpow_add₀ (by norm_num)]
          congr 1
          push_cast
          ring
      _ ≤ d.value := mul_le_mul_of_nonneg_right (by exact_mod_cast hle) hpow.le
  · calc d.value < 10 ^ (n + 1) * 10 ^ d.exponent :=
          mul_lt_mul_of_pos_right (by exact_mod_cast hlt) hpow
      _ = 10 ^ (d.exponent + ((n + 1 : Nat) : Int)) := by
          rw [← zpow_natCast, ← zpow_add₀ (by norm_num), add_comm]

/-- Numbers near a double are neither too large nor too small to be read. -/
theorem Near.range {m : Nat} {e : Int} {v : ℚ} (h : Near m e v) (hrep : Representable m e)
    (hm : 0 < m) : (10 : ℚ) ^ (-330 : Int) < v ∧ v < 10 ^ (310 : Int) := by
  have hpow : (0 : ℚ) < 2 ^ e := by positivity
  have hone : (1 : ℚ) ≤ m := by exact_mod_cast hm
  obtain ⟨hleast, hgreatest⟩ := Neighbourhood.value_range hrep hm
  have hreach := reach_le m e
  constructor
  · have hpowers : ((2 * 2 ^ 1074 : Nat) : ℚ) < (10 ^ 330 : Nat) := by
      exact_mod_cast (show 2 * 2 ^ 1074 < 10 ^ 330 by decide +kernel)
    calc (10 : ℚ) ^ (-330 : Int) = ((10 ^ 330 : Nat) : ℚ)⁻¹ := by
          rw [zpow_neg, Nat.cast_pow]
          rfl
      _ < ((2 * 2 ^ 1074 : Nat) : ℚ)⁻¹ := inv_strictAnti₀ (by positivity) hpowers
      _ = 1 / 2 * 2 ^ (-1074 : Int) := by
          rw [zpow_neg, Nat.cast_mul, Nat.cast_pow, mul_inv, one_div]
          rfl
      _ ≤ 1 / 2 * (m * 2 ^ e) := mul_le_mul_of_nonneg_left hleast (by norm_num)
      _ ≤ (m - reach m e) * 2 ^ e := by nlinarith
      _ ≤ v := h.low
  · have hpowers : ((2 * 2 ^ 1024 : Nat) : ℚ) < (10 ^ 310 : Nat) := by
      exact_mod_cast (show 2 * 2 ^ 1024 < 10 ^ 310 by decide +kernel)
    rw [Nat.cast_mul, Nat.cast_pow, Nat.cast_pow] at hpowers
    calc v ≤ (m + 1 / 2) * 2 ^ e := h.high
      _ ≤ 2 * (m * 2 ^ e) := by nlinarith
      _ < 2 * 2 ^ (1024 : Int) := by linarith
      _ < 10 ^ (310 : Int) := hpowers

/-- A decimal in the interval of a double rounds to this double. -/
theorem Decimal.nearestBits_eq_of_near {d : Decimal} {m : Nat} {e : Int}
    (hrep : Representable m e) (hm : 0 < m) (h : Near m e d.value) :
    d.nearestBits = magnitudeBits m e := by
  have hne : d.digits ≠ 0 := by
    intro hzero
    have hpos := h.pos hm
    simp [Decimal.value, hzero] at hpos
  obtain ⟨hlow, hhigh⟩ := h.range hrep hm
  obtain ⟨hlow', hhigh'⟩ := Decimal.value_range hne
  have hlarge : d.exponent + (digitChars d.digits).length - 1 < 310 :=
    (zpow_lt_zpow_iff_right₀ (by norm_num)).mp (hlow'.trans_lt hhigh)
  have hsmall : -330 < d.exponent + (digitChars d.digits).length :=
    (zpow_lt_zpow_iff_right₀ (by norm_num)).mp (hlow.trans hhigh')
  simp only [nearestBits]
  rw [if_neg hne, if_neg (by omega), if_neg (by omega)]
  refine Double.nearestBits_eq_of_near hrep hm (powTen_snd_pos _) ?_
  rw [Nat.cast_mul, mul_div_assoc, powTen_div]
  exact h

/-- Reading the shortest decimal of a double gives its bits. -/
theorem nearestBits_shortest {m : Nat} {e : Int} (hrep : Representable m e) (tie : Tie) :
    (shortest tie m e).nearestBits = magnitudeBits m e := by
  by_cases hm : m = 0
  · have hleast : e = minExponent := by
      by_contra hne
      have hge := hrep.exponent_ge
      have hnormal := hrep.normal (by omega)
      rw [hm] at hnormal
      exact absurd hnormal (by decide)
    simp [shortest, Decimal.nearestBits, magnitudeBits, hm, hleast]
  · have hpos := Nat.pos_of_ne_zero hm
    exact Decimal.nearestBits_eq_of_near hrep hpos (shortest_spec hrep hpos tie).1

end Double

open Double

/-- The numeral of a finite double is a decimal without zeros at its end, and reads back as this
double. -/
theorem Numeral.ofFloat?_spec {x : Float} (h : Double.isFinite x = true) :
    ∃ negative d, Numeral.ofFloat? x = some (.decimal negative d) ∧ d.Normal ∧
      (Numeral.decimal negative d).toFloat? = some x := by
  obtain ⟨negative, m, e, hview, hrep⟩ := exists_view_of_isFinite h
  have hx := (eq_ofSignBits_of_view hview).2
  refine ⟨negative, shortest .even m e, by simp [ofFloat?, hview], shortest_normal hrep _, ?_⟩
  have hbits := nearestBits_shortest hrep .even
  simp only [toFloat?, toDecimal, hbits, if_neg (Nat.ne_of_lt hrep.magnitudeBits_lt), ← hx]

end BasicScript
