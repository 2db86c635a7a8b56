import BasicScript.Proofs.Double.Order
import BasicScript.Proofs.Double.Rounding

/-!
# The numbers that doubles stand for

A finite double stands for a rational number, which is read off its sign, mantissa and exponent.
The core library compares doubles by its own reading of their bits; it is the same reading, and
finite doubles compare as their numbers do.

* `toRat x` is the number that the double `x` stands for.
* `unpack_toModel`: the core library reads the bits of a double as `view` does.
* `lt_iff_toRat_lt` and `beq_iff_toRat_eq`: finite doubles compare as their numbers.
-/

namespace BasicScript.Double

/-! ## Sign, mantissa and exponent as a number -/

/-- The number of a sign, a mantissa and an exponent; what is not finite has none and counts as
zero. -/
def View.toRat : View → ℚ
  | .finite negative m e => if negative then -(m * 2 ^ e) else m * 2 ^ e
  | _ => 0

/-- The number that a finite double stands for. -/
def toRat (x : Float) : ℚ :=
  (view x).toRat

/-! ## The model of the core library -/

section Order

open Float.Model Float.Model.UnpackedFloat

/-- The sign of a double in the model of the core library. -/
def signOf (negative : Bool) : Sign :=
  if negative then .negative else .positive

/-- What a double stands for in the model of the core library, in which a zero has no exponent. -/
def View.unpacked : View → UnpackedFloat
  | .nan => .notANumber
  | .infinite negative => .infinity (signOf negative)
  | .finite negative m e =>
    if h : 0 < m then .finite (signOf negative) m e h else .zero (signOf negative)

/-- A double with a mantissa is unpacked as it is viewed. -/
theorem View.unpacked_of_pos {negative : Bool} {m : Nat} {e : Int} (h : 0 < m) :
    (View.finite negative m e).unpacked = .finite (signOf negative) m e h :=
  dif_pos h

/-- **The model of the core library reads the bits of a double in the same way.** -/
theorem unpack_toModel (x : Float) : x.toModel.unpack = (view x).unpacked := by
  have hexponent := toNat_unpackExponent x.toBits
  have hmantissa := toNat_unpackMantissa x.toBits
  have hsign := toNat_unpackSign x.toBits
  have hsignOf : Sign.ofBitVec (@unpackSign .binary64 x.toBits.toBitVec) =
      signOf (x.toBits.toNat / signBit % 2 == 1) := by
    unfold Sign.ofBitVec signOf
    simp only [← BitVec.toNat_inj, hsign]
    rcases Nat.mod_two_eq_zero_or_one (x.toBits.toNat / signBit) with h | h <;> rw [h] <;> rfl
  have hleading : (1#1 ++ @unpackMantissa .binary64 x.toBits.toBitVec).toNat =
      hiddenBit + x.toBits.toNat % hiddenBit := by
    rw [BitVec.toNat_append, ← Nat.shiftLeft_add_eq_or_of_lt (BitVec.isLt _), hmantissa]
    rfl
  have hexponentBias : (Format.binary64.exponentBias : Int) + (52 : Nat) = 1 - minExponent := by
    decide
  show UnpackedFloat.unpack .binary64 x.toBits.toBitVec = _
  unfold UnpackedFloat.unpack view viewBits
  simp only [← BitVec.toNat_inj, hexponent, hmantissa, hsignOf, hleading, hexponentBias]
  by_cases hlast : x.toBits.toNat / hiddenBit % 2048 = 2047
  · by_cases hzero : x.toBits.toNat % hiddenBit = 0
    · simp [hlast, hzero, View.unpacked]
    · simp [hlast, hzero, View.unpacked]
  by_cases hfirst : x.toBits.toNat / hiddenBit % 2048 = 0
  · by_cases hzero : x.toBits.toNat % hiddenBit = 0
    · simp [hfirst, hzero, View.unpacked]
    · simp [hfirst, hzero, View.unpacked_of_pos (Nat.pos_of_ne_zero hzero)]
  · have hpos : 0 < hiddenBit + x.toBits.toNat % hiddenBit := by
      unfold hiddenBit
      omega
    rw [if_neg hlast, if_neg hfirst, if_neg (by exact hlast), if_neg (by exact hfirst),
      View.unpacked_of_pos hpos, UnpackedFloat.finite.injEq]
    refine ⟨rfl, rfl, ?_⟩
    omega

/-! ## Magnitudes -/

/-- Of two finite doubles the one with the greater exponent is the greater one. -/
theorem Representable.lt_of_exponent_lt {m n : Nat} {e f : Int} (hm : Representable m e)
    (hn : Representable n f) (h : e < f) : (m : ℚ) * 2 ^ e < n * 2 ^ f := by
  have hnormal : (2 : ℚ) ^ 52 ≤ n := by
    rw [← cast_hiddenBit]
    exact_mod_cast hn.normal (lt_of_le_of_lt hm.exponent_ge h)
  calc (m : ℚ) * 2 ^ e < 2 ^ 53 * 2 ^ e := by
        have := hm.cast_lt
        gcongr
    _ = 2 ^ 52 * 2 ^ (e + 1) := by
        rw [zpow_add_one₀ two_ne_zero]
        ring
    _ ≤ n * 2 ^ f := by
        have : (2 : ℚ) ^ (e + 1) ≤ 2 ^ f := zpow_le_zpow_right₀ one_le_two h
        gcongr

/-- Magnitudes are compared by their exponents first, and then by their mantissas. -/
theorem compare_magnitudes {m n : Nat} {e f : Int} (hm : Representable m e)
    (hn : Representable n f) :
    (compare e f).then (compare m n) = compare ((m : ℚ) * 2 ^ e) (n * 2 ^ f) := by
  rcases lt_trichotomy e f with hlt | rfl | hgt
  · rw [compare_lt_iff_lt.mpr hlt, compare_lt_iff_lt.mpr (hm.lt_of_exponent_lt hn hlt)]
    rfl
  · have hpow : (0 : ℚ) < 2 ^ e := by positivity
    rw [compare_eq_iff_eq.mpr rfl]
    show compare m n = _
    rcases lt_trichotomy m n with hlt | rfl | hgt
    · rw [compare_lt_iff_lt.mpr hlt, compare_lt_iff_lt.mpr (by gcongr)]
    · rw [compare_eq_iff_eq.mpr rfl, compare_eq_iff_eq.mpr rfl]
    · rw [compare_gt_iff_gt.mpr hgt, compare_gt_iff_gt.mpr (by gcongr)]
  · rw [compare_gt_iff_gt.mpr hgt, compare_gt_iff_gt.mpr (hn.lt_of_exponent_lt hm hgt)]
    rfl

/-! ## Signs and zeros -/

variable {s t : Bool} {m n : Nat} {e f : Int}

/-- Zero stands for zero, with either sign. -/
theorem View.toRat_zero : (View.finite s 0 e).toRat = 0 := by
  cases s <;> simp [View.toRat]

/-- A positive double stands for a positive number. -/
theorem View.toRat_pos (h : 0 < m) : 0 < (View.finite false m e).toRat := by
  show (0 : ℚ) < m * 2 ^ e
  positivity

theorem View.toRat_neg (h : 0 < m) : (View.finite true m e).toRat < 0 :=
  neg_neg_of_pos (View.toRat_pos h)

/-- A smaller number compares as less. -/
theorem some_compare_of_lt {a b : ℚ} (h : a < b) : some Ordering.lt = some (compare a b) :=
  congrArg some (compare_lt_iff_lt.mpr h).symm

theorem some_compare_of_gt {a b : ℚ} (h : b < a) : some Ordering.gt = some (compare a b) :=
  congrArg some (compare_gt_iff_gt.mpr h).symm

/-- Numbers that are not zero compare by their signs first, and then by their magnitudes. -/
theorem compare_unpacked_of_pos (hm : Representable m e) (hn : Representable n f) (hmpos : 0 < m)
    (hnpos : 0 < n) :
    (View.finite s m e).unpacked.compare (View.finite t n f).unpacked =
      some (compare (View.finite s m e).toRat (View.finite t n f).toRat) := by
  rw [View.unpacked_of_pos hmpos, View.unpacked_of_pos hnpos]
  cases s with
  | false =>
    cases t with
    | false => exact congrArg some (compare_magnitudes hm hn)
    | true => exact some_compare_of_gt ((View.toRat_neg hnpos).trans (View.toRat_pos hmpos))
  | true =>
    cases t with
    | false => exact some_compare_of_lt ((View.toRat_neg hmpos).trans (View.toRat_pos hnpos))
    | true =>
      have hneg : StrictAnti (Neg.neg : ℚ → ℚ) := fun _ _ => neg_lt_neg
      refine congrArg some ((Value.swap_compareParts m n e f).trans
        ((compare_magnitudes hn hm).trans ?_))
      rw [← cmp_eq_compare, ← cmp_eq_compare]
      exact (hneg.cmp_map_eq _ _).symm

/-- Zeros, signs and magnitudes compare as numbers. -/
theorem compare_unpacked (hm : Representable m e) (hn : Representable n f) :
    (View.finite s m e).unpacked.compare (View.finite t n f).unpacked =
      some (compare (View.finite s m e).toRat (View.finite t n f).toRat) := by
  rcases Nat.eq_zero_or_pos m with rfl | hmpos
  · rw [View.toRat_zero]
    rcases Nat.eq_zero_or_pos n with rfl | hnpos
    · rw [View.toRat_zero, compare_eq_iff_eq.mpr rfl]
      rfl
    · rw [View.unpacked_of_pos hnpos]
      cases t with
      | false => exact some_compare_of_lt (View.toRat_pos hnpos)
      | true => exact some_compare_of_gt (View.toRat_neg hnpos)
  · rcases Nat.eq_zero_or_pos n with rfl | hnpos
    · rw [View.unpacked_of_pos hmpos, View.toRat_zero]
      cases s with
      | false => exact some_compare_of_gt (View.toRat_pos hmpos)
      | true => exact some_compare_of_lt (View.toRat_neg hmpos)
    · exact compare_unpacked_of_pos hm hn hmpos hnpos

/-! ## The order of finite doubles -/

/-- **Finite doubles compare as the numbers they stand for.** -/
theorem compare_unpack {x y : Float} (hx : isFinite x = true) (hy : isFinite y = true) :
    x.toModel.unpack.compare y.toModel.unpack = some (compare (toRat x) (toRat y)) := by
  obtain ⟨s, m, e, hviewx, hm⟩ := exists_view_of_isFinite hx
  obtain ⟨t, n, f, hviewy, hn⟩ := exists_view_of_isFinite hy
  rw [unpack_toModel, unpack_toModel, toRat, toRat, hviewx, hviewy]
  exact compare_unpacked hm hn

/-- **Finite doubles are ordered by the numbers that they stand for.** -/
theorem lt_iff_toRat_lt {x y : Float} (hx : isFinite x = true) (hy : isFinite y = true) :
    x < y ↔ toRat x < toRat y := by
  rw [Value.lt_iff_compare, compare_unpack hx hy, Option.some_inj, compare_lt_iff_lt]

/-- Finite doubles are equal if they stand for the same number. -/
theorem beq_iff_toRat_eq {x y : Float} (hx : isFinite x = true) (hy : isFinite y = true) :
    (x == y) = true ↔ toRat x = toRat y := by
  rw [Value.beq_iff_compare, compare_unpack hx hy, Option.some_inj, compare_eq_iff_eq]

end Order

end BasicScript.Double
