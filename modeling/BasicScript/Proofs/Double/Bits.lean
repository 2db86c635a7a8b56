import BasicScript.Double.Basic
import Mathlib

/-!
# Doubles and their bits

A double is its bits, and a finite one is its sign, mantissa and exponent: `view` loses nothing.
The bits of the magnitude `m * 2 ^ e` are `(e - minExponent) * hiddenBit + m`, for normal and
subnormal doubles alike, since the leading one of a normal mantissa counts as one exponent more.

* `Representable`: the mantissas and exponents of finite doubles.
* `eq_ofSignBits_of_view`: a finite double from its sign, mantissa and exponent.
* `isNaN_ofInt`: an integer becomes a number.
* `view_ofSignBits`: bits below those of infinity make a finite double with this magnitude.
-/

namespace BasicScript.Double

/-! ## Sign, mantissa and exponent -/

/-- Mantissa and exponent of a finite double: the mantissa has 53 binary digits, or fewer at the
least exponent. -/
structure Representable (m : Nat) (e : Int) : Prop where
  lt : m < 2 * hiddenBit
  exponent_ge : minExponent ≤ e
  exponent_le : e ≤ 971
  normal : minExponent < e → hiddenBit ≤ m

/-- The bits of the magnitude `m * 2 ^ e`. -/
def magnitudeBits (m : Nat) (e : Int) : Nat :=
  (e - minExponent).toNat * hiddenBit + m

/-- The bits of a finite double are below those of infinity. -/
theorem Representable.magnitudeBits_lt {m : Nat} {e : Int} (h : Representable m e) :
    magnitudeBits m e < infinityBits := by
  obtain ⟨hm, hlow, hhigh, hnormal⟩ := h
  unfold magnitudeBits infinityBits
  unfold minExponent hiddenBit at *
  omega

/-- What a finite double is made of. -/
theorem viewBits_finite {n : Nat} (hn : n < 2 ^ 64) {negative : Bool} {m : Nat} {e : Int}
    (h : viewBits n = .finite negative m e) :
    Representable m e ∧ n = (if negative then signBit else 0) + magnitudeBits m e := by
  simp only [viewBits] at h
  split at h
  · split at h <;> cases h
  next hfield =>
  split at h
  · next hzero =>
    cases h
    unfold minExponent hiddenBit signBit at *
    refine ⟨⟨?_, by decide, by decide, fun hlt => absurd hlt (by decide)⟩, ?_⟩
    · unfold hiddenBit
      omega
    · simp only [magnitudeBits, minExponent, hiddenBit, beq_iff_eq]
      split <;> omega
  · next hnonzero =>
    cases h
    unfold minExponent hiddenBit signBit at *
    refine ⟨⟨?_, ?_, by omega, fun _ => Nat.le_add_right ..⟩, ?_⟩
    · unfold hiddenBit
      omega
    · unfold minExponent
      omega
    · simp only [magnitudeBits, minExponent, hiddenBit, beq_iff_eq]
      split <;> omega

/-- A finite double is its sign, mantissa and exponent. -/
theorem eq_ofSignBits_of_view {x : Float} {negative : Bool} {m : Nat} {e : Int}
    (h : view x = .finite negative m e) :
    Representable m e ∧ x = ofSignBits negative (magnitudeBits m e) := by
  obtain ⟨hrep, hbits⟩ := viewBits_finite x.toBits.toNat_lt h
  refine ⟨hrep, ?_⟩
  have hsum : (if negative then signBit + magnitudeBits m e else magnitudeBits m e) =
      x.toBits.toNat := by
    rw [hbits]
    cases negative <;> simp
  rw [ofSignBits, hsum, UInt64.ofNat_toNat, Float.ofBits_toBits]

/-- A finite double has a sign, a mantissa and an exponent. -/
theorem exists_view_of_isFinite {x : Float} (h : isFinite x = true) :
    ∃ negative m e, view x = .finite negative m e ∧ Representable m e := by
  unfold isFinite at h
  split at h
  · next negative m e hview => exact ⟨negative, m, e, hview, (eq_ofSignBits_of_view hview).1⟩
  · cases h

/-! ## Bits that are no number -/

section NotANumber

open Float.Model Float.Model.UnpackedFloat

/-- A double is no number if its bits are none; packing the bits changes only how they say so. -/
theorem isNaN_ofBits (w : UInt64) :
    (Float.ofBits w).isNaN = @isNaNBits .binary64 w.toBitVec := by
  have hbits : (Float.ofBits w).toModel.toBits.toBitVec =
      if @isNaNBits .binary64 w.toBitVec then packedNaN .binary64 else w.toBitVec :=
    @pack_unpack .binary64 w.toBitVec (by decide)
  rw [Bool.eq_iff_iff]
  refine (isNaN_unpack_iff_of_valid (Float.ofBits w).toModel.valid).trans ?_
  rw [hbits]
  split
  · next hnan => exact iff_of_true rfl hnan
  · next hnumber =>
    refine iff_of_false (fun hpacked => hnumber ?_) hnumber
    rw [hpacked]
    exact isNaNBits_packedNaN

/-- The exponent of a word as a number. -/
theorem toNat_unpackExponent (w : UInt64) :
    (@unpackExponent .binary64 w.toBitVec).toNat = w.toNat / hiddenBit % 2048 := by
  rw [unpackExponent_def, BitVec.extractLsb'_toNat, Nat.shiftRight_eq_div_pow]
  rfl

theorem toNat_unpackMantissa (w : UInt64) :
    (@unpackMantissa .binary64 w.toBitVec).toNat = w.toNat % hiddenBit := by
  rw [unpackMantissa_def, BitVec.extractLsb'_toNat, Nat.shiftRight_zero]
  rfl

theorem toNat_unpackSign (w : UInt64) :
    (@unpackSign .binary64 w.toBitVec).toNat = w.toNat / signBit % 2 := by
  rw [unpackSign_def, BitVec.extractLsb'_toNat, Nat.shiftRight_eq_div_pow]
  rfl

/-- Bits are no number beyond those of infinity, with either sign. -/
theorem isNaNBits_iff (w : UInt64) :
    @isNaNBits .binary64 w.toBitVec = true ↔
      w.toNat / hiddenBit % 2048 = 2047 ∧ w.toNat % hiddenBit ≠ 0 := by
  rw [isNaNBits, decide_eq_true_iff, ← BitVec.toNat_inj, toNat_unpackExponent, ne_eq,
    ← BitVec.toNat_inj, toNat_unpackMantissa]
  exact Iff.rfl

/-- A word up to infinity is not that of NaN. -/
theorem isNaN_ofSignBits {negative : Bool} {bits : Nat} (h : bits ≤ infinityBits) :
    (ofSignBits negative bits).isNaN = false := by
  unfold ofSignBits
  rw [isNaN_ofBits, ← Bool.not_eq_true, isNaNBits_iff, UInt64.toNat_ofNat']
  unfold infinityBits hiddenBit at *
  unfold signBit
  split <;> omega

/-- The nearest double is infinity at most. -/
theorem nearestBits_le (a b : Nat) : nearestBits a b ≤ infinityBits := by
  unfold nearestBits
  split
  · exact Nat.zero_le _
  · exact Nat.min_le_right ..

/-- Rounding an integer yields a number. -/
theorem isNaN_ofInt (n : Int) : (ofInt n).isNaN = false :=
  isNaN_ofSignBits (nearestBits_le _ _)

/-- Packing the bits of a number changes nothing. -/
theorem toBits_ofBits {w : UInt64} (h : @isNaNBits .binary64 w.toBitVec = false) :
    (Float.ofBits w).toBits = w := by
  have hbits : (Float.ofBits w).toModel.toBits.toBitVec =
      if @isNaNBits .binary64 w.toBitVec then packedNaN .binary64 else w.toBitVec :=
    @pack_unpack .binary64 w.toBitVec (by decide)
  rw [h] at hbits
  exact UInt64.toBitVec_inj.mp hbits

/-- Bits below those of infinity make a finite double, with either sign. -/
theorem view_ofSignBits (negative : Bool) {bits : Nat} (h : bits < infinityBits) :
    ∃ m e, view (ofSignBits negative bits) = .finite negative m e ∧ Representable m e ∧
      bits = magnitudeBits m e := by
  let w := UInt64.ofNat (if negative then signBit + bits else bits)
  have hw : w.toNat = (if negative then signBit else 0) + bits := by
    rw [UInt64.toNat_ofNat']
    unfold infinityBits hiddenBit at h
    unfold signBit
    split <;> omega
  have hfield : w.toNat / hiddenBit % 2048 ≠ 2047 := by
    rw [hw]
    unfold infinityBits hiddenBit at *
    unfold signBit
    split <;> omega
  have hnumber : @isNaNBits .binary64 w.toBitVec = false := by
    rw [← Bool.not_eq_true, isNaNBits_iff]
    exact fun hnan => hfield hnan.1
  have hview : ∃ s m e, viewBits w.toNat = .finite s m e := by
    simp only [viewBits, if_neg hfield]
    split
    · exact ⟨_, _, _, rfl⟩
    · exact ⟨_, _, _, rfl⟩
  obtain ⟨s, m, e, hview⟩ := hview
  obtain ⟨hrep, hbits⟩ := viewBits_finite w.toNat_lt hview
  -- The sign is worth more than all other bits together.
  have hmagnitude := hrep.magnitudeBits_lt
  have hparts : s = negative ∧ bits = magnitudeBits m e := by
    rw [hw] at hbits
    unfold infinityBits hiddenBit at *
    unfold signBit at hbits
    cases s <;> cases negative <;> simp at hbits ⊢ <;> omega
  refine ⟨m, e, ?_, hrep, hparts.2⟩
  rw [view, ofSignBits, toBits_ofBits hnumber, hview, hparts.1]

/-- A word below infinity is that of a finite double. -/
theorem isFinite_ofSignBits {negative : Bool} {bits : Nat} (h : bits < infinityBits) :
    isFinite (ofSignBits negative bits) = true := by
  obtain ⟨m, e, hview, -⟩ := view_ofSignBits negative h
  rw [isFinite, hview]

end NotANumber

end BasicScript.Double
