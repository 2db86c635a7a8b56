import BasicScript.Json.Printer
import BasicScript.Json.Token
import BasicScript.Proofs.Double.Shortest

/-!
# Numbers of a JSON text

A numeral that is written and read again is the same numeral.  An integer is its digits.  A decimal
is written in one of four layouts; in each of them the digits before and behind the point, with the
exponent, spell the digits of the decimal followed by zeros, and the reader drops these zeros.

* `decimalOf_eq`: what the reader makes of digits, point and exponent.
* `scanMagnitude?_layout`: every layout reads back.
* `scanNumber?_chars`: every numeral reads back.
-/

namespace BasicScript

open Double

/-! ## Digits -/

namespace Double

/-- The digits of a number spell it. -/
theorem natOfDigits_digitChars (n : Nat) : natOfDigits (digitChars n) = n :=
  Nat.ofDigitChars_ten_toDigits

/-- Zeros at the end are powers of ten. -/
theorem natOfDigits_append_zeros (cs : List Char) (n : Nat) :
    natOfDigits (cs ++ List.replicate n '0') = natOfDigits cs * 10 ^ n := by
  refine (Nat.ofDigitChars_append 0).trans ?_
  rw [Nat.ofDigitChars_replicate_zero, Nat.mul_comm]
  rfl

/-- Zeros at the beginning do not count. -/
theorem natOfDigits_zeros_append (n : Nat) (cs : List Char) :
    natOfDigits (List.replicate n '0' ++ cs) = natOfDigits cs := by
  refine (Nat.ofDigitChars_append 0).trans ?_
  rw [Nat.ofDigitChars_replicate_zero, Nat.mul_zero]
  rfl

/-- The digits of a number are digits. -/
theorem isDigit_of_mem_digitChars {n : Nat} {c : Char} (h : c ∈ digitChars n) :
    c.isDigit = true :=
  Nat.isDigit_of_mem_toDigits (by decide) (by decide) h

/-- A positive number does not start with a zero. -/
theorem head?_digitChars {n : Nat} (hn : n ≠ 0) : (digitChars n).head? ≠ some '0' := by
  induction n using Nat.strongRecOn with
  | ind n ih =>
    unfold digitChars
    rw [Nat.toDigits_eq_if (by decide)]
    split
    · next hlt =>
      have hdigit : ∀ d : Fin 10, d.val ≠ 0 → d.val.digitChar ≠ '0' := by decide
      simpa using hdigit ⟨n, hlt⟩ hn
    · next hge =>
      rw [List.head?_append_of_ne_nil _ Nat.toDigits_ne_nil]
      exact ih (n / 10) (by omega) (by omega)

/-- The text does not go on with a digit. -/
def NoDigit (rest : List Char) : Prop :=
  ∀ c ∈ rest.head?, c.isDigit = false

/-- The digits before something that is none are read off. -/
theorem spanDigits_append {ds rest : List Char} (hds : ∀ c ∈ ds, c.isDigit = true)
    (hrest : NoDigit rest) : spanDigits (ds ++ rest) = (ds, rest) := by
  have hstop : rest.takeWhile Char.isDigit = [] ∧ rest.dropWhile Char.isDigit = rest := by
    cases rest with
    | nil => exact ⟨rfl, rfl⟩
    | cons c rest =>
      have hc : c.isDigit = false := hrest c rfl
      simp [hc]
  unfold spanDigits
  rw [List.takeWhile_append_of_pos hds, List.dropWhile_append_of_pos hds, hstop.1, hstop.2,
    List.append_nil]

end Double

/-! ## Digits, point and exponent -/

namespace Double.Decimal

/-- The zeros behind the digits of a decimal go into its exponent. -/
theorem dropZeros_scaled {d : Decimal} (hd : d.digits % 10 ≠ 0) {j fuel : Nat} (hj : j ≤ fuel) :
    (Decimal.mk (d.digits * 10 ^ j) (d.exponent - j)).dropZeros fuel = d := by
  induction j generalizing fuel with
  | zero =>
    cases fuel with
    | zero => simp [dropZeros]
    | succ fuel => simp [dropZeros, hd]
  | succ j ih =>
    obtain ⟨fuel, rfl⟩ := Nat.exists_eq_add_of_le' (Nat.lt_of_lt_of_le (Nat.succ_pos j) hj)
    have hpow : d.digits * 10 ^ (j + 1) = 10 * (d.digits * 10 ^ j) := by
      rw [Nat.pow_succ]
      ac_rfl
    have hpos : 0 < d.digits * 10 ^ j := Nat.mul_pos (by omega) (Nat.pow_pos (by decide))
    have hzero : d.digits * 10 ^ (j + 1) ≠ 0 ∧ d.digits * 10 ^ (j + 1) % 10 = 0 := by omega
    rw [dropZeros, if_pos hzero]
    have hquotient : d.digits * 10 ^ (j + 1) / 10 = d.digits * 10 ^ j := by omega
    have hexponent : d.exponent - ((j + 1 : Nat) : Int) + 1 = d.exponent - j := by omega
    rw [hquotient, hexponent]
    exact ih (by omega)

end Double.Decimal

/-- The decimals of a document have no zeros at their end. -/
def Numeral.Normal : Numeral → Prop
  | .integer _ _ => True
  | .decimal _ d => d.Normal

namespace Json

/-- What the reader makes of digits before and behind the point that spell the digits of a decimal
and zeros behind them. -/
theorem decimalOf_eq {d : Decimal} (hd : d.Normal) {whole fraction : List Char} {e : Int} {j : Nat}
    (hdigits : natOfDigits (whole ++ fraction) = d.digits * 10 ^ j)
    (hexponent : e - fraction.length = d.exponent - j)
    (hj : j ≤ whole.length + fraction.length) : decimalOf whole fraction e = d := by
  simp only [decimalOf, hdigits, hexponent]
  rcases hd with hlast | rfl
  · have hpos : 0 < d.digits * 10 ^ j := Nat.mul_pos (by omega) (Nat.pow_pos (by decide))
    rw [if_neg (by omega), Decimal.dropZeros_scaled hlast hj]
  · simp

/-! ## Scanning the parts of a number -/

/-- The text does not go on with anything that belongs to a number. -/
structure Ended (rest : List Char) : Prop where
  noDigit : NoDigit rest
  noPoint : rest.head? ≠ some '.'
  noScale : ∀ c ∈ rest.head?, (c == 'e' || c == 'E') = false

/-- Without a point there is no fraction. -/
theorem scanFraction?_none {rest : List Char} (h : rest.head? ≠ some '.') :
    scanFraction? rest = some ([], rest) := by
  unfold scanFraction?
  split
  · exact absurd rfl h
  · rfl

/-- The fraction consists of the digits after the point. -/
theorem scanFraction?_some (ds : List Char) {rest : List Char} (hds : ∀ c ∈ ds, c.isDigit = true)
    (hne : ds ≠ []) (hrest : NoDigit rest) : scanFraction? ('.' :: (ds ++ rest)) = some (ds, rest) := by
  simp only [scanFraction?, spanDigits_append hds hrest, List.isEmpty_iff, hne, if_false]

/-- Where a number ends there is no exponent. -/
theorem scanScale?_none {rest : List Char} (h : Ended rest) :
    scanScale? rest = some (none, rest) := by
  cases rest with
  | nil => rfl
  | cons c rest => simp only [scanScale?, h.noScale c rfl, Bool.false_eq_true, if_false]

/-- The exponent of the scientific layout. -/
theorem scanScale?_some (e : Int) {rest : List Char} (h : Ended rest) :
    scanScale? ('e' :: (if 0 ≤ e then '+' else '-') :: (digitChars e.natAbs ++ rest)) =
      some (some e, rest) := by
  have hspan := spanDigits_append (fun _ => isDigit_of_mem_digitChars (n := e.natAbs)) h.noDigit
  have hne : digitChars e.natAbs ≠ [] := Nat.toDigits_ne_nil
  simp only [scanScale?, beq_self_eq_true, Bool.true_or, if_true]
  split
  · next he =>
    simp only [scanExponent?, spanSign, hspan, List.isEmpty_iff, hne, natOfDigits_digitChars,
      if_false, Bool.false_eq_true, Option.map_some, Option.some.injEq, Prod.mk.injEq, and_true]
    omega
  · next he =>
    simp only [scanExponent?, spanSign, hspan, List.isEmpty_iff, hne, natOfDigits_digitChars,
      if_false, if_true, Option.map_some, Option.some.injEq, Prod.mk.injEq, and_true]
    omega

/-- Digits before the point that may start a number: there is one, and a leading zero stands
alone. -/
structure Leading (whole : List Char) : Prop where
  digits : ∀ c ∈ whole, c.isDigit = true
  ne_nil : whole ≠ []
  zero : whole.head? = some '0' → whole.length = 1

/-- Digits before the point, and what follows them. -/
theorem Leading.scanMagnitude? {whole : List Char} (h : Leading whole) (negative : Bool)
    {tail : List Char} (htail : NoDigit tail) :
    scanMagnitude? negative (whole ++ tail) = (do
      let (fraction, rest) ← scanFraction? tail
      let (scale, rest) ← scanScale? rest
      if fraction.isEmpty && scale.isNone then
        return (.integer negative (natOfDigits whole), rest)
      else
        return (.decimal negative (decimalOf whole fraction (scale.getD 0)), rest)) := by
  have hstart : (whole.isEmpty || (whole.head? == some '0' && decide (1 < whole.length))) =
      false := by
    have hzero : ¬ (whole.head? = some '0' ∧ 1 < whole.length) := fun ⟨hhead, hlong⟩ => by
      have := h.zero hhead
      omega
    simpa [h.ne_nil] using hzero
  unfold Json.scanMagnitude?
  simp only [spanDigits_append h.digits htail, hstart, Bool.false_eq_true, if_false]

/-- The digits of a number begin with a zero only if it is zero. -/
theorem leading_digitChars (n : Nat) : Leading (digitChars n) where
  digits _ := isDigit_of_mem_digitChars
  ne_nil := Nat.toDigits_ne_nil
  zero hhead := by
    by_cases hn : n = 0
    · subst hn
      rfl
    · exact absurd hhead (head?_digitChars hn)

/-! ## The layouts of a decimal -/

/-- Digits end before a character that is none. -/
theorem noDigit_cons {c : Char} (hc : c.isDigit = false) (rest : List Char) :
    NoDigit (c :: rest) := by
  intro c' hc'
  obtain rfl := Option.some.inj hc'
  exact hc

/-- Digits with a point and no exponent. -/
theorem scanMagnitude?_point {whole fraction rest : List Char} (negative : Bool)
    (hwhole : Leading whole) (hfraction : ∀ c ∈ fraction, c.isDigit = true) (hne : fraction ≠ [])
    (hrest : Ended rest) :
    scanMagnitude? negative (whole ++ '.' :: (fraction ++ rest)) =
      some (.decimal negative (decimalOf whole fraction 0), rest) := by
  rw [hwhole.scanMagnitude? negative (noDigit_cons (by decide) _),
    scanFraction?_some fraction hfraction hne hrest.noDigit]
  simp [scanScale?_none hrest, hne]

/-- Digits with an exponent behind a fraction that may be missing. -/
theorem scanMagnitude?_scale (whole : List Char) {tail fraction rest : List Char}
    (negative : Bool) (e : Int) (hwhole : Leading whole) (htail : NoDigit tail)
    (hfraction : scanFraction? tail = some (fraction,
      'e' :: (if 0 ≤ e then '+' else '-') :: (digitChars e.natAbs ++ rest)))
    (hrest : Ended rest) :
    scanMagnitude? negative (whole ++ tail) =
      some (.decimal negative (decimalOf whole fraction e), rest) := by
  rw [hwhole.scanMagnitude? negative htail, hfraction]
  simp [scanScale?_some e hrest]

/-- A whole number, with its zeros written out and `.0` behind it. -/
theorem scanMagnitude?_whole {d : Decimal} (hd : d.Normal) (negative : Bool) (he : 0 ≤ d.exponent)
    {rest : List Char} (hrest : Ended rest) :
    scanMagnitude? negative (d.positional ++ ['.', '0'] ++ rest) =
      some (.decimal negative d, rest) := by
  have hlayout : d.positional ++ ['.', '0'] ++ rest =
      (digitChars d.digits ++ List.replicate d.exponent.toNat '0') ++ '.' :: (['0'] ++ rest) := by
    simp [Decimal.positional, he]
  have hleading : Leading (digitChars d.digits ++ List.replicate d.exponent.toNat '0') := by
    rcases hd with hlast | rfl
    · refine ⟨fun c hc => ?_, by simp [(leading_digitChars _).ne_nil], fun hhead => ?_⟩
      · rcases List.mem_append.mp hc with hc | hc
        · exact isDigit_of_mem_digitChars hc
        · rw [List.eq_of_mem_replicate hc]
          rfl
      · rw [List.head?_append_of_ne_nil _ (leading_digitChars _).ne_nil] at hhead
        exact absurd hhead (head?_digitChars (by omega))
    · exact leading_digitChars 0
  have hdecimal : decimalOf (digitChars d.digits ++ List.replicate d.exponent.toNat '0') ['0'] 0 =
      d := by
    apply decimalOf_eq hd (j := d.exponent.toNat + 1)
    · have hzeros : digitChars d.digits ++ List.replicate d.exponent.toNat '0' ++ ['0'] =
          digitChars d.digits ++ List.replicate (d.exponent.toNat + 1) '0' := by
        rw [List.append_assoc, List.replicate_succ']
      rw [hzeros, natOfDigits_append_zeros, natOfDigits_digitChars]
    · rw [List.length_singleton]
      omega
    · rw [List.length_append, List.length_replicate, List.length_singleton]
      omega
  rw [hlayout, scanMagnitude?_point negative hleading (List.forall_mem_singleton.mpr rfl)
    (List.cons_ne_nil _ _) hrest, hdecimal]

/-- A decimal with a fraction is not zero. -/
theorem digits_ne_zero {d : Decimal} (hd : d.Normal) (he : d.exponent < 0) : d.digits ≠ 0 := by
  rcases hd with hlast | rfl
  · omega
  · exact absurd he (by decide)

/-- A decimal with the point among its digits. -/
theorem scanMagnitude?_inside {d : Decimal} (hd : d.Normal) (negative : Bool)
    (he : d.exponent < 0) (hplaces : (-d.exponent).toNat < (digitChars d.digits).length)
    {rest : List Char} (hrest : Ended rest) :
    scanMagnitude? negative (d.positional ++ rest) = some (.decimal negative d, rest) := by
  have hdigits := natOfDigits_digitChars d.digits
  have hhead := head?_digitChars (digits_ne_zero hd he)
  have hall := (leading_digitChars d.digits).digits
  simp only [Decimal.positional, if_neg (show ¬ 0 ≤ d.exponent by omega), if_pos hplaces]
  generalize digitChars d.digits = ds at *
  generalize hk : ds.length - (-d.exponent).toNat = k
  have hleading : Leading (ds.take k) := by
    refine ⟨fun c hc => hall c (List.mem_of_mem_take hc), ?_, fun hzero => ?_⟩
    · rw [← List.length_pos_iff, List.length_take]
      omega
    · rw [List.head?_take, if_neg (by omega)] at hzero
      exact absurd hzero hhead
  have hfraction : ds.drop k ≠ [] := by
    rw [← List.length_pos_iff, List.length_drop]
    omega
  have hdecimal : decimalOf (ds.take k) (ds.drop k) 0 = d := by
    apply decimalOf_eq hd (j := 0)
    · rw [List.take_append_drop, hdigits, Nat.pow_zero, Nat.mul_one]
    · rw [List.length_drop]
      omega
    · exact Nat.zero_le _
  rw [List.append_assoc, List.cons_append, scanMagnitude?_point negative hleading
    (fun c hc => hall c (List.mem_of_mem_drop hc)) hfraction hrest, hdecimal]

/-- A decimal with its digits behind the point. -/
theorem scanMagnitude?_below {d : Decimal} (hd : d.Normal) (negative : Bool)
    (he : d.exponent < 0) (hplaces : ¬ (-d.exponent).toNat < (digitChars d.digits).length)
    {rest : List Char} (hrest : Ended rest) :
    scanMagnitude? negative (d.positional ++ rest) = some (.decimal negative d, rest) := by
  have hdigits := natOfDigits_digitChars d.digits
  have hall := (leading_digitChars d.digits).digits
  have hne := (leading_digitChars d.digits).ne_nil
  simp only [Decimal.positional, if_neg (show ¬ 0 ≤ d.exponent by omega), if_neg hplaces]
  generalize digitChars d.digits = ds at *
  generalize hk : (-d.exponent).toNat - ds.length = k
  have hfraction : ∀ c ∈ List.replicate k '0' ++ ds, c.isDigit = true := by
    intro c hc
    rcases List.mem_append.mp hc with hc | hc
    · rw [List.eq_of_mem_replicate hc]
      rfl
    · exact hall c hc
  have hdecimal : decimalOf ['0'] (List.replicate k '0' ++ ds) 0 = d := by
    apply decimalOf_eq hd (j := 0)
    · have hzeros : ['0'] ++ (List.replicate k '0' ++ ds) = List.replicate (k + 1) '0' ++ ds := by
        rw [List.replicate_succ]
        rfl
      rw [hzeros, natOfDigits_zeros_append, hdigits, Nat.pow_zero, Nat.mul_one]
    · rw [List.length_append, List.length_replicate]
      omega
    · exact Nat.zero_le _
  have hpoint := scanMagnitude?_point negative (leading_digitChars 0) hfraction
    (by simp [hne]) hrest
  rw [show digitChars 0 = ['0'] from rfl, hdecimal] at hpoint
  exact hpoint

/-- A decimal with an exponent. -/
theorem scanMagnitude?_scientific {d : Decimal} (hd : d.Normal) (negative : Bool)
    {rest : List Char} (hrest : Ended rest) :
    scanMagnitude? negative (d.scientific ++ rest) = some (.decimal negative d, rest) := by
  have hdigits := natOfDigits_digitChars d.digits
  have hall := (leading_digitChars d.digits).digits
  have hne := (leading_digitChars d.digits).ne_nil
  simp only [Decimal.scientific]
  generalize digitChars d.digits = ds at *
  generalize he : d.exponent + ds.length - 1 = e
  -- one digit before the point, and a point only if there are more
  match ds with
  | [] => exact absurd rfl hne
  | [c] =>
    have hdecimal : decimalOf [c] [] e = d := by
      apply decimalOf_eq hd (j := 0)
      · rw [List.append_nil, hdigits, Nat.pow_zero, Nat.mul_one]
      · rw [List.length_singleton] at he
        rw [List.length_nil]
        omega
      · exact Nat.zero_le _
    have hscale := scanMagnitude?_scale [c] negative e ⟨hall, hne, fun _ => rfl⟩
      (noDigit_cons (by decide) _) (scanFraction?_none (by simp)) hrest
    rw [hdecimal] at hscale
    simpa using hscale
  | c :: c' :: cs =>
    have hdecimal : decimalOf [c] (c' :: cs) e = d := by
      apply decimalOf_eq hd (j := 0)
      · rw [List.singleton_append, hdigits, Nat.pow_zero, Nat.mul_one]
      · rw [List.length_cons] at he
        omega
      · exact Nat.zero_le _
    have hscale := scanMagnitude?_scale [c] negative e
      ⟨fun c hc => hall c (by simp_all), by simp, fun _ => rfl⟩
      (noDigit_cons (by decide) _)
      (scanFraction?_some (c' :: cs) (fun c hc => hall c (List.mem_cons_of_mem _ hc))
        (by simp) (noDigit_cons (by decide) _)) hrest
    rw [hdecimal] at hscale
    simpa using hscale

/-- Every layout of a decimal reads back. -/
theorem scanMagnitude?_layout {d : Decimal} (hd : d.Normal) (negative : Bool) {rest : List Char}
    (hrest : Ended rest) :
    scanMagnitude? negative (d.layout ++ rest) = some (.decimal negative d, rest) := by
  unfold Decimal.layout
  dsimp only
  split
  · split
    · next he => exact scanMagnitude?_whole hd negative he hrest
    · next he =>
      by_cases hplaces : (-d.exponent).toNat < (digitChars d.digits).length
      · exact scanMagnitude?_inside hd negative (by omega) hplaces hrest
      · exact scanMagnitude?_below hd negative (by omega) hplaces hrest
  · exact scanMagnitude?_scientific hd negative hrest

/-- The digits of an integer read back. -/
theorem scanMagnitude?_integer (negative : Bool) (n : Nat) {rest : List Char}
    (hrest : Ended rest) :
    scanMagnitude? negative (digitChars n ++ rest) = some (.integer negative n, rest) := by
  rw [(leading_digitChars n).scanMagnitude? negative hrest.noDigit,
    scanFraction?_none hrest.noPoint]
  simp [scanScale?_none hrest, natOfDigits_digitChars]

/-- The magnitude of a number starts with a digit. -/
theorem exists_digit_of_scanMagnitude? {negative : Bool} {cs : List Char}
    {r : Numeral × List Char} (h : scanMagnitude? negative cs = some r) :
    ∃ c cs', cs = c :: cs' ∧ c.isDigit = true := by
  cases cs with
  | nil => simp [scanMagnitude?, spanDigits] at h
  | cons c cs =>
    refine ⟨c, cs, rfl, ?_⟩
    by_contra hc
    simp [scanMagnitude?, spanDigits, hc] at h

/-- Every numeral reads back. -/
theorem scanNumber?_chars {n : Numeral} (hn : n.Normal) {rest : List Char} (hrest : Ended rest) :
    scanNumber? (n.chars ++ rest) = some (n, rest) := by
  have hsigned : ∀ (negative : Bool) (cs : List Char) (r : Numeral × List Char),
      scanMagnitude? negative (cs ++ rest) = some r →
      scanNumber? ((if negative then ['-'] else []) ++ cs ++ rest) = some r := by
    intro negative cs r h
    cases negative with
    | true => exact h
    | false =>
      obtain ⟨c, cs', hcs, hc⟩ := exists_digit_of_scanMagnitude? h
      simp only [Bool.false_eq_true, if_false, List.nil_append]
      unfold scanNumber?
      split
      · next heq =>
        rw [hcs] at heq
        cases heq
        exact absurd hc (by decide)
      · exact h
  cases n with
  | integer negative n => exact hsigned negative _ _ (scanMagnitude?_integer negative n hrest)
  | decimal negative d => exact hsigned negative _ _ (scanMagnitude?_layout hn negative hrest)

/-- A text that starts with a digit or a minus sign starts with a number. -/
theorem nextToken?_number {c : Char} (hc : c = '-' ∨ c.isDigit = true) (cs : List Char) :
    nextToken? (c :: cs) = (scanNumber? (c :: cs)).map fun (n, rest) => (.num n, rest) := by
  unfold nextToken?
  split
  all_goals first
    | rfl
    | next heq =>
      obtain rfl := (List.cons.inj heq).1
      exact absurd hc (by decide)

/-- The token of a numeral. -/
theorem nextToken?_chars {n : Numeral} (hn : n.Normal) {rest : List Char} (hrest : Ended rest) :
    nextToken? (n.chars ++ rest) = some (.num n, rest) := by
  have hscan := scanNumber?_chars hn hrest
  have hstart : ∃ c cs, n.chars ++ rest = c :: cs ∧ (c = '-' ∨ c.isDigit = true) := by
    generalize n.chars ++ rest = cs at hscan
    unfold scanNumber? at hscan
    split at hscan
    · exact ⟨'-', _, rfl, .inl rfl⟩
    · obtain ⟨c, cs, hcs, hc⟩ := exists_digit_of_scanMagnitude? hscan
      exact ⟨c, cs, hcs, .inr hc⟩
  obtain ⟨c, cs, hcs, hc⟩ := hstart
  rw [hcs] at hscan ⊢
  rw [nextToken?_number hc, hscan]
  rfl

end Json

end BasicScript
