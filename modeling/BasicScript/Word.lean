/-!
# Integers of 64 bits

The integers of the language have 64 bits.  An exact result that does not fit is never wrapped:
`Word.ofInt?` gives none then, and the caller decides what happens.
-/

namespace BasicScript.Word

/-- The least integer. -/
def least : Int := -0x8000000000000000

/-- The greatest integer. -/
def greatest : Int := 0x7FFFFFFFFFFFFFFF

/-- The integer in 64 bits, if it fits. -/
def ofInt? (n : Int) : Option Int64 :=
  if least ≤ n ∧ n ≤ greatest then some (Int64.ofInt n) else none

/-- The integer of a sign and a magnitude, if it fits. -/
def ofSign? (negative : Bool) (magnitude : Nat) : Option Int64 :=
  ofInt? (if negative then -(magnitude : Int) else magnitude)

/-- The integer, or the nearest end of the integers that fit. -/
def clamp (n : Int) : Int :=
  max least (min n greatest)

/-- The integer that an integer of 64 bits stands for fits. -/
theorem ofInt?_toInt (n : Int64) : ofInt? n.toInt = some n := by
  have h₁ := n.le_toInt
  have h₂ := n.toInt_lt
  unfold ofInt? least greatest
  rw [if_pos (by omega), Int64.ofInt_toInt]

/-- An integer that fits keeps its value. -/
theorem toInt_of_ofInt?_eq_some {n : Int} {w : Int64} (h : ofInt? n = some w) : w.toInt = n := by
  unfold ofInt? least greatest at h
  split at h
  case isTrue fits =>
    obtain rfl := Option.some.inj h
    exact Int64.toInt_ofInt_of_le (by omega) (by omega)
  case isFalse => cases h

/-- Only an integer outside of 64 bits does not fit. -/
theorem ofInt?_eq_none_iff {n : Int} : ofInt? n = none ↔ n < least ∨ greatest < n := by
  unfold ofInt?
  split <;> simp <;> omega

end BasicScript.Word
