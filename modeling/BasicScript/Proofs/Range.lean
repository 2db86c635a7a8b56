import BasicScript.Value.Index
import Mathlib.Data.Char
import Mathlib.Data.List.Sort

/-!
# Ranges

A range lists everything from one bound to the other, upward or downward.  Its bounds are two texts
of one character each, or two numbers, which lose their fractions.

* `Value.Spans` says what it means that a list goes from one bound to the other.  There is only one
  such list (`Value.Spans.eq`), and backward it goes from the other bound to the one
  (`Value.Spans.reverse`).
* `Value.range_ok`: what a range consists of when it succeeds.
* `range_complete_ordered_reversible`: which ranges succeed, and with which items.
* `range_within_limit_unless_text`: only numbers are held to the limit on arrays.
* `text_range_beyond_limit`: a range of characters with more items than the limit.
-/

namespace BasicScript

namespace Value

/-! ## Lists between two bounds -/

/-- The list goes from `a` to `b`: all that lies between the two is in it, and from item to item it
goes on in one direction. -/
structure Spans {α : Type} [LE α] [LT α] (a b : α) (xs : List α) : Prop where
  mem_iff : ∀ x, x ∈ xs ↔ a ≤ x ∧ x ≤ b ∨ b ≤ x ∧ x ≤ a
  upward : a ≤ b → xs.Pairwise (· < ·)
  downward : b ≤ a → xs.Pairwise (· > ·)

namespace Spans

/-- Backward, a list goes from the other bound to the one. -/
theorem reverse {α : Type} [LE α] [LT α] {a b : α} {xs : List α} (h : Spans a b xs) :
    Spans b a xs.reverse where
  mem_iff x := by rw [List.mem_reverse, h.mem_iff, or_comm]
  upward hle := List.pairwise_reverse.mpr (h.downward hle)
  downward hle := List.pairwise_reverse.mpr (h.upward hle)

/-- There is one list from `a` to `b` only. -/
theorem eq {α : Type} [LinearOrder α] {a b : α} {xs ys : List α} (h : Spans a b xs)
    (h' : Spans a b ys) : xs = ys := by
  have hmem : ∀ x, x ∈ xs ↔ x ∈ ys := fun x => (h.mem_iff x).trans (h'.mem_iff x).symm
  rcases le_total a b with hle | hle
  · exact (h.upward hle).eq_of_mem_iff (h'.upward hle) hmem
  · exact (h.downward hle).eq_of_mem_iff (h'.downward hle) hmem

/-- Integers of 64 bits lie as the numbers do that they stand for. -/
theorem of_map_toInt {a b : Int64} {ns : List Int64}
    (h : Spans a.toInt b.toInt (ns.map Int64.toInt)) : Spans a b ns where
  mem_iff n := by
    rw [← List.mem_map_of_injective (fun _ _ => Int64.toInt_inj.mp), h.mem_iff]
    simp only [Int64.le_iff_toInt_le]
  upward hle := (List.pairwise_map.mp (h.upward (Int64.le_iff_toInt_le.mp hle))).imp
    Int64.lt_iff_toInt_lt.mpr
  downward hle := (List.pairwise_map.mp (h.downward (Int64.le_iff_toInt_le.mp hle))).imp
    Int64.lt_iff_toInt_lt.mpr

end Spans

/-! ## Integers -/

/-- From one integer to another there is one more than their distance. -/
theorem length_intsBetween (a b : Int) : (intsBetween a b).length = (a - b).natAbs + 1 := by
  rw [intsBetween, List.length_map, List.length_range]

/-- The integers between two bounds go from one to the other. -/
theorem spans_intsBetween (a b : Int) : Spans a b (intsBetween a b) where
  mem_iff n := by
    unfold intsBetween
    rw [List.mem_map]
    constructor
    · intro h
      obtain ⟨i, hi, rfl⟩ := h
      have hlt := List.mem_range.mp hi
      split <;> omega
    · intro h
      refine ⟨(n - a).natAbs, List.mem_range.mpr (by omega), ?_⟩
      split <;> omega
  upward hle := by
    unfold intsBetween
    simp only [if_pos hle]
    exact List.pairwise_map.mpr (List.pairwise_lt_range.imp fun hlt => by omega)
  downward hle := by
    unfold intsBetween
    refine List.pairwise_map.mpr (List.pairwise_lt_range.imp_of_mem fun hi hj hlt => ?_)
    have hj := List.mem_range.mp hj
    split <;> omega

/-- Between two integers of 64 bits there are only such. -/
theorem map_toInt_intsBetween (a b : Int64) :
    ((intsBetween a.toInt b.toInt).map Int64.ofInt).map Int64.toInt =
      intsBetween a.toInt b.toInt := by
  have hfits : ∀ n ∈ intsBetween a.toInt b.toInt, (Int64.ofInt n).toInt = n := by
    intro n hn
    have hbetween := ((spans_intsBetween a.toInt b.toInt).mem_iff n).mp hn
    have ha := a.le_toInt
    have hb := b.le_toInt
    have ha' := a.toInt_lt
    have hb' := b.toInt_lt
    exact Int64.toInt_ofInt_of_le (by omega) (by omega)
  rw [List.map_map]
  exact (List.map_congr_left hfits).trans (List.map_id _)

/-- The integers from the other bound are the same ones backward. -/
theorem intsBetween_reverse (a b : Int) : intsBetween b a = (intsBetween a b).reverse :=
  (spans_intsBetween b a).eq (spans_intsBetween a b).reverse

/-! ## Characters -/

/-- Characters are ordered by their codes. -/
theorem toNat_le_iff {a b : Char} : a.toNat ≤ b.toNat ↔ a ≤ b := Iff.rfl

theorem toNat_lt_iff {a b : Char} : a.toNat < b.toNat ↔ a < b := Iff.rfl

/-- The character with a code, if the code is one. -/
def char? (n : Nat) : Option Char :=
  if n.isValidChar then some (Char.ofNat n) else none

/-- A code is that of one character only. -/
theorem char?_eq_some_iff {n : Nat} {c : Char} : char? n = some c ↔ n = c.toNat := by
  unfold char?
  constructor
  · intro h
    split at h
    · next hvalid => rw [← Option.some.inj h, Text.toNat_ofNat hvalid]
    · cases h
  · intro h
    have hvalid : c.toNat.isValidChar := c.valid
    rw [h, if_pos hvalid, Char.ofNat_toNat]

theorem charsUpward_eq (a b : Char) :
    charsUpward a b = (List.range' a.toNat (b.toNat + 1 - a.toNat)).filterMap char? := rfl

/-- Upward from one character to another there are all those between the two. -/
theorem mem_charsUpward {a b c : Char} : c ∈ charsUpward a b ↔ a ≤ c ∧ c ≤ b := by
  simp only [charsUpward_eq, List.mem_filterMap, char?_eq_some_iff, exists_eq_right,
    List.mem_range'_1, ← toNat_le_iff]
  omega

/-- The characters come in the order of their codes. -/
theorem pairwise_charsUpward (a b : Char) : (charsUpward a b).Pairwise (· < ·) := by
  simp only [charsUpward_eq, List.pairwise_filterMap, char?_eq_some_iff]
  refine (List.pairwise_lt_range' 1).imp ?_
  intro m n hlt c hc d hd
  rw [← toNat_lt_iff, ← hc, ← hd]
  exact hlt

/-- The characters upward from the lower bound go from one bound to the other. -/
theorem spans_charsUpward {a b : Char} (hle : a ≤ b) : Spans a b (charsUpward a b) where
  mem_iff c := by
    rw [mem_charsUpward]
    constructor
    · exact .inl
    · intro h
      rcases h with h | ⟨hbc, hca⟩
      · exact h
      · exact ⟨hle.trans hbc, hca.trans hle⟩
  upward _ := pairwise_charsUpward a b
  downward hge := by
    -- Both bounds are the same character, and so is every item.
    obtain rfl := le_antisymm hle hge
    refine (pairwise_charsUpward a a).imp_of_mem fun {c d} hc hd hlt => ?_
    have hc := mem_charsUpward.mp hc
    have hd := mem_charsUpward.mp hd
    exact absurd (hd.2.trans hc.1) (not_le.mpr hlt)

/-- The characters between two bounds go from one to the other, in either direction. -/
theorem spans_charsBetween (a b : Char) : Spans a b (charsBetween a b) := by
  unfold charsBetween
  split
  · next hle => exact spans_charsUpward hle
  · next hle => exact (spans_charsUpward (le_of_not_ge hle)).reverse

/-- The characters from the other bound are the same ones backward. -/
theorem charsBetween_reverse (a b : Char) : charsBetween b a = (charsBetween a b).reverse :=
  (spans_charsBetween b a).eq (spans_charsBetween a b).reverse

/-- How many characters have a code below `n`: all but the codes from `0xD800` to `0xDFFF`. -/
def charsBelow (n : Nat) : Nat :=
  n - (min n 0xE000 - min n 0xD800)

/-- There are more characters below a higher code. -/
theorem charsBelow_mono {m n : Nat} (h : m ≤ n) : charsBelow m ≤ charsBelow n := by
  unfold charsBelow
  omega

/-- One code more is one character more, or none if it is the code of none. -/
theorem charsBelow_succ {n : Nat} (hn : n < 0x110000) :
    charsBelow (n + 1) = charsBelow n + if n.isValidChar then 1 else 0 := by
  unfold charsBelow
  split <;> omega

/-- Among codes in a row there are as many characters as the count says. -/
theorem length_filterMap_char? (s k : Nat) (h : s + k ≤ 0x110000) :
    ((List.range' s k).filterMap char?).length = charsBelow (s + k) - charsBelow s := by
  induction k with
  | zero => rw [Nat.add_zero, Nat.sub_self]; rfl
  | succ k ih =>
    have hlast : ([s + k].filterMap char?).length = if (s + k).isValidChar then 1 else 0 := by
      by_cases hvalid : (s + k).isValidChar <;> simp [char?, hvalid]
    have hmono := charsBelow_mono (Nat.le_add_right s k)
    rw [List.range'_1_concat, List.filterMap_append, List.length_append, hlast, ih (by omega),
      ← Nat.add_assoc, charsBelow_succ (by omega)]
    omega

/-- The number of a character among all characters. -/
def ordinal (c : Char) : Nat :=
  charsBelow c.toNat

/-- Characters are numbered in their order. -/
theorem ordinal_mono {a b : Char} (hle : a ≤ b) : ordinal a ≤ ordinal b :=
  charsBelow_mono hle

/-- There are 1112064 characters. -/
theorem ordinal_lt (c : Char) : ordinal c < 0x10F800 := by
  have hvalid : c.toNat.isValidChar := c.valid
  unfold Nat.isValidChar at hvalid
  unfold ordinal charsBelow
  omega

/-- Upward from one character to another there is one more than the difference of their numbers. -/
theorem length_charsUpward {a b : Char} (hle : a ≤ b) :
    (charsUpward a b).length = ordinal b - ordinal a + 1 := by
  have hcodes : a.toNat ≤ b.toNat := hle
  have hb : b.toNat.isValidChar := b.valid
  have hbelow : b.toNat < 0x110000 := by
    unfold Nat.isValidChar at hb
    omega
  have hend : a.toNat + (b.toNat + 1 - a.toNat) = b.toNat + 1 := by omega
  have hmono := ordinal_mono hle
  rw [charsUpward_eq, length_filterMap_char? _ _ (by omega), hend, charsBelow_succ hbelow,
    if_pos hb]
  exact Nat.succ_sub hmono

/-- From one character to another there is one more than the distance of their numbers. -/
theorem length_charsBetween (a b : Char) :
    (charsBetween a b).length = ((ordinal a : Int) - ordinal b).natAbs + 1 := by
  unfold charsBetween
  split
  · next hle =>
    have hmono := ordinal_mono hle
    rw [length_charsUpward hle]
    omega
  · next hle =>
    have hge := le_of_not_ge hle
    have hmono := ordinal_mono hge
    rw [List.length_reverse, length_charsUpward hge]
    omega

/-! ## Ranges of values -/

/-- A text of one character is that character. -/
theorem str_eq_character {s : String} {c : Char} (h : s.toList = [c]) : str s = character c := by
  rw [← String.toList_singleton, String.toList_inj] at h
  exact congrArg str h

/-- A range of characters succeeds, however many there are. -/
theorem range_characters (a b : Char) (max : Nat) :
    (character a).range (character b) max = .ok (array ((charsBetween a b).map character)) := by
  unfold range character
  simp only [String.toList_singleton]

/-- A text is not truncated, not even one that looks like a number. -/
theorem not_str_of_truncated {v : Value} {n : Int64} (h : v.truncated = .ok n) (s : String) :
    v ≠ str s := by
  intro hv
  rw [hv] at h
  cases h

/-- A range of numbers succeeds if it has no more items than the limit allows. -/
theorem range_numbers {first last : Value} {a b : Int64} (ha : first.truncated = .ok a)
    (hb : last.truncated = .ok b) (max : Nat) :
    first.range last max =
      if max < min ((a.toInt - b.toInt).natAbs + 1) maxCount then
        .error (.allocationTooLarge "Range" [a.toInt, b.toInt]
          (min ((a.toInt - b.toInt).natAbs + 1) maxCount))
      else .ok (array ((intsBetween a.toInt b.toInt).map fun n => int (Int64.ofInt n))) := by
  unfold range
  split
  · cases ha
  · rw [ha, hb]
    rfl

/-- **What a range that succeeds consists of.** -/
theorem range_ok {first last v : Value} {max : Nat} (h : first.range last max = .ok v) :
    (∃ a b, first = character a ∧ last = character b ∧
      v = array ((charsBetween a b).map character)) ∨
    ∃ a b, first.truncated = .ok a ∧ last.truncated = .ok b ∧
      min ((a.toInt - b.toInt).natAbs + 1) maxCount ≤ max ∧
      v = array ((intsBetween a.toInt b.toInt).map fun n => int (Int64.ofInt n)) := by
  cases ha : first.truncated with
  | ok a =>
    cases hb : last.truncated with
    | ok b =>
      rw [range_numbers ha hb] at h
      split at h
      · cases h
      · next hfits => exact .inr ⟨a, b, rfl, rfl, Nat.le_of_not_lt hfits, (Except.ok.inj h).symm⟩
    | error e =>
      unfold range at h
      split at h
      · cases ha
      · rw [ha, hb] at h
        cases h
  | error e =>
    unfold range at h
    split at h
    · split at h
      · next hs ht =>
        exact .inl ⟨_, _, str_eq_character hs, str_eq_character ht, (Except.ok.inj h).symm⟩
      · cases h
    · rw [ha] at h
      cases h

/-- A range succeeds backward as well. -/
theorem range_reverse {first last v : Value} {max : Nat} (h : first.range last max = .ok v) :
    ∃ items, v = array items ∧ last.range first max = .ok (array items.reverse) := by
  rcases range_ok h with ⟨a, b, rfl, rfl, rfl⟩ | ⟨a, b, ha, hb, hfits, rfl⟩
  · refine ⟨_, rfl, ?_⟩
    rw [range_characters, charsBetween_reverse, List.map_reverse]
  · have hsame : (b.toInt - a.toInt).natAbs = (a.toInt - b.toInt).natAbs := by omega
    refine ⟨_, rfl, ?_⟩
    rw [range_numbers hb ha, hsame, if_neg (Nat.not_lt.mpr hfits), intsBetween_reverse,
      List.map_reverse]

/-- A text of any other length than one is no bound. -/
theorem range_texts_of_length_ne {s t : String} (h : s.length ≠ 1 ∨ t.length ≠ 1) (max : Nat) :
    (str s).range (str t) max =
      .error (.typeError "single-character range bounds" "STRING") := by
  have hlength : ∀ {u : String} {c : Char}, u.toList = [c] → u.length = 1 := by
    intro u c hu
    rw [← String.length_toList, hu]
    rfl
  unfold range
  dsimp only
  split
  · next hs ht => exact (h.elim (· (hlength hs)) (· (hlength ht))).elim
  · rfl

/-- A text that cannot be a bound is refused on either side. -/
theorem range_of_bad_text {s : String} {v : Value} (h : s.length ≠ 1 ∨ ∀ t, v ≠ str t)
    (max : Nat) :
    (∃ e, e.kind = .typeError ∧ (str s).range v max = .error e) ∧
      ∃ e, e.kind = .typeError ∧ v.range (str s) max = .error e := by
  cases v with
  | str t =>
    have hs : s.length ≠ 1 := h.resolve_right fun hstr => hstr t rfl
    exact ⟨⟨_, rfl, range_texts_of_length_ne (.inl hs) max⟩,
      ⟨_, rfl, range_texts_of_length_ne (.inr hs) max⟩⟩
  -- The text is what is no number, unless the other bound is none either.
  | _ => exact ⟨⟨_, rfl, rfl⟩, ⟨_, rfl, rfl⟩⟩

end Value

open Value

/-- **Ranges are complete, in order, and the same from both ends.**  A range of integers succeeds
exactly if there are no more of them than the limit, which is to lie below the largest count; its
items are then all integers from one bound to the other, each of them once.  A range of characters
always succeeds, with all characters from one bound to the other; a code that is no character is
left out.  A range that succeeds does so from its last bound to its first one too, with the same
items backward.  A text of no or several characters fails as a bound, and so does any text beside a
bound that is none. -/
theorem range_complete_ordered_reversible (max : Nat) :
    (max < maxCount → ∀ a b : Int64,
      ((∃ v, (int a).range (int b) max = .ok v) ↔ (a.toInt - b.toInt).natAbs + 1 ≤ max) ∧
      ∀ v, (int a).range (int b) max = .ok v → ∃ ns, v = array (ns.map int) ∧
        Spans a b ns ∧ ns.length = (a.toInt - b.toInt).natAbs + 1) ∧
    (∀ a b : Char, ∃ cs, (character a).range (character b) max = .ok (array (cs.map character)) ∧
      Spans a b cs) ∧
    (∀ first last v : Value, first.range last max = .ok v → ∃ items, v = array items ∧
      last.range first max = .ok (array items.reverse)) ∧
    ∀ (s : String) (v : Value), (s.length ≠ 1 ∨ ∀ t, v ≠ str t) →
      (∃ e, e.kind = .typeError ∧ (str s).range v max = .error e) ∧
        ∃ e, e.kind = .typeError ∧ v.range (str s) max = .error e := by
  refine ⟨?_, ?_, fun _ _ _ => range_reverse, fun s v h => range_of_bad_text h max⟩
  · intro hmax a b
    have hrange := @range_numbers (int a) (int b) a b rfl rfl max
    -- Below the largest count, the count of the items is exact.
    have hfits : ¬max < min ((a.toInt - b.toInt).natAbs + 1) maxCount ↔
        (a.toInt - b.toInt).natAbs + 1 ≤ max := by
      omega
    refine ⟨⟨?_, ?_⟩, ?_⟩
    · intro h
      obtain ⟨v, hv⟩ := h
      rw [hrange] at hv
      by_contra hover
      rw [if_pos (not_not.mp fun h => hover (hfits.mp h))] at hv
      cases hv
    · intro hcount
      exact ⟨_, hrange.trans (if_neg (hfits.mpr hcount))⟩
    · intro v hv
      rw [hrange] at hv
      split at hv
      · cases hv
      · obtain rfl := Except.ok.inj hv
        refine ⟨(intsBetween a.toInt b.toInt).map Int64.ofInt, ?_, .of_map_toInt ?_, ?_⟩
        · rw [List.map_map]
          rfl
        · rw [map_toInt_intsBetween]
          exact spans_intsBetween a.toInt b.toInt
        · rw [List.length_map, length_intsBetween]
  · intro a b
    exact ⟨charsBetween a b, range_characters a b max, spans_charsBetween a b⟩

/-- The greatest integers, and the two characters beside the codes that are none. -/
theorem range_complete_ordered_reversible_ends :
    let a := Int64.ofInt Word.greatest
    let b := Int64.ofInt (Word.greatest - 2)
    3 < maxCount ∧ (∃ v, (int a).range (int b) 3 = .ok v) ∧
    (¬∃ v, (int a).range (int b) 2 = .ok v) ∧
    (character '\ue000').range (character '\ud7ff') 2 =
      .ok (array [character '\ue000', character '\ud7ff']) ∧
    ∃ e, e.kind = .typeError ∧ (str "ab").range (int 1) 2 = .error e := by
  intro a b
  obtain ⟨hints, -⟩ := range_complete_ordered_reversible 3
  obtain ⟨hints', -, hreverse, htext⟩ := range_complete_ordered_reversible 2
  have hcount : (a.toInt - b.toInt).natAbs + 1 = 3 := by decide +kernel
  refine ⟨by decide, (hints (by decide) a b).1.mpr hcount.le, ?_, ?_, (htext "ab" (int 1) ?_).1⟩
  · intro h
    have hle := (hints' (by decide) a b).1.mp h
    rw [hcount] at hle
    exact absurd hle (by decide)
  · have hchars : charsBetween '\ud7ff' '\ue000' = ['\ud7ff', '\ue000'] := by
      decide +kernel
    have hforward := range_characters '\ud7ff' '\ue000' 2
    rw [hchars] at hforward
    obtain ⟨items, hitems, hbackward⟩ := hreverse _ _ _ hforward
    obtain rfl := Value.array.inj hitems
    exact hbackward
  · exact .inl (by decide)

/-- **Only a range of numbers is held to the limit.**  A range that succeeds is an array.  If its
bounds are characters, it succeeds in the same way under any limit, and has as many items as there
are characters from one bound to the other.  If not, none of its bounds is a text, and it has no more
items than the limit, but for the range of all integers under the largest limit of all: they are one
more. -/
theorem range_within_limit_unless_text {first last v : Value} {max : Nat}
    (h : first.range last max = .ok v) :
    ∃ items, v = array items ∧
      ((∃ a b, first = character a ∧ last = character b ∧
          (∀ limit, first.range last limit = .ok v) ∧
          items.length = ((ordinal a : Int) - ordinal b).natAbs + 1 ∧ items.length ≤ 0x10F800) ∨
        (∀ s, first ≠ str s) ∧ (∀ s, last ≠ str s) ∧
          (items.length ≤ max ∨ max = maxCount ∧ items.length = maxCount + 1)) := by
  rcases range_ok h with ⟨a, b, rfl, rfl, rfl⟩ | ⟨a, b, ha, hb, hfits, rfl⟩
  · have hlength := length_charsBetween a b
    have ha := ordinal_lt a
    have hb := ordinal_lt b
    refine ⟨_, rfl, .inl ⟨a, b, rfl, rfl, range_characters a b, ?_, ?_⟩⟩
    · rw [List.length_map, hlength]
    · rw [List.length_map, hlength]
      omega
  · have hlength := length_intsBetween a.toInt b.toInt
    have ha' := a.le_toInt
    have hb' := b.le_toInt
    have ha'' := a.toInt_lt
    have hb'' := b.toInt_lt
    have hcount : maxCount = 0xFFFFFFFFFFFFFFFF := rfl
    refine ⟨_, rfl, .inr ⟨not_str_of_truncated ha, not_str_of_truncated hb, ?_⟩⟩
    rw [List.length_map, hlength]
    omega

/-- Three letters where two are allowed, and three integers where three are. -/
theorem range_within_limit_unless_text_three :
    (∀ limit, (character 'a').range (character 'c') limit =
      .ok (array [character 'a', character 'b', character 'c'])) ∧
    (int 3).range (int 1) 3 = .ok (array [int 3, int 2, int 1]) ∧
    [int 3, int 2, int 1].length ≤ 3 := by
  have hchars : charsBetween 'a' 'c' = ['a', 'b', 'c'] := by decide
  have hletters := range_characters 'a' 'c' 2
  rw [hchars] at hletters
  have hints : (int 3).range (int 1) 3 = .ok (array [int 3, int 2, int 1]) := rfl
  refine ⟨?_, hints, ?_⟩
  · obtain ⟨-, -, ⟨-, -, -, -, hany, -⟩ | ⟨hnone, -⟩⟩ := range_within_limit_unless_text hletters
    · exact hany
    · exact absurd rfl (hnone _)
  · obtain ⟨items, hitems, ⟨a, -, ha, -⟩ | ⟨-, -, hcount⟩⟩ := range_within_limit_unless_text hints
    · cases ha
    · obtain rfl := Value.array.inj hitems
      exact hcount.resolve_right fun hlargest => absurd hlargest.1 (by decide)

/-- The letters from `a` to `e` are five, under a limit of three. -/
theorem text_range_beyond_limit :
    ∃ items, (character 'a').range (character 'e') 3 = .ok (array items) ∧ 3 < items.length :=
  ⟨_, range_characters 'a' 'e' 3, by decide⟩

end BasicScript
