import BasicScript.Host.Console
import BasicScript.Proofs.Json.Number

/-!
# Printed integers read back

STR prints an integer as its digits behind a minus sign if it is negative, and VAL reads a number
off a text without the blanks at its ends.  The digits of an integer are no blanks and spell it
again, so that VAL gives back every integer of 64 bits, however many blanks there are around it, and
never takes it for a double.

* `Text.trimBlanks_append`: only the blanks at the ends are put aside.
* `Value.readInt?_intText`: a printed integer is read back if it fits 64 bits.
* `printed_integer_reads_back`: VAL undoes STR.
-/

namespace BasicScript

/-! ## Blanks at the ends -/

namespace Text

/-- Blanks at the beginning are dropped, and no more. -/
theorem dropWhile_blanks_append {blanks cs : List Char} (hblanks : ∀ c ∈ blanks, isBlank c = true)
    (hcs : ∀ c ∈ cs.head?, isBlank c = false) : (blanks ++ cs).dropWhile isBlank = cs := by
  rw [List.dropWhile_append_of_pos hblanks]
  cases cs with
  | nil => rfl
  | cons c cs => exact List.dropWhile_cons_of_neg (by simp [hcs c rfl])

/-- **The blanks at both ends are put aside**, and nothing else is. -/
theorem trimBlanks_append {left cs right : List Char} (hleft : ∀ c ∈ left, isBlank c = true)
    (hright : ∀ c ∈ right, isBlank c = true) (hne : cs ≠ [])
    (hhead : ∀ c ∈ cs.head?, isBlank c = false) (hlast : ∀ c ∈ cs.getLast?, isBlank c = false) :
    trimBlanks (left ++ cs ++ right) = cs := by
  have hfront : (left ++ cs ++ right).dropWhile isBlank = cs ++ right := by
    rw [List.append_assoc]
    refine dropWhile_blanks_append hleft ?_
    rwa [List.head?_append_of_ne_nil _ hne]
  have hback : (right.reverse ++ cs.reverse).dropWhile isBlank = cs.reverse := by
    refine dropWhile_blanks_append (fun c hc => hright c (List.mem_reverse.mp hc)) ?_
    rwa [List.head?_reverse]
  unfold trimBlanks
  rw [hfront, List.reverse_append, hback, List.reverse_reverse]

/-- A digit is no blank. -/
theorem isBlank_of_isDigit {c : Char} (h : c.isDigit = true) : isBlank c = false := by
  have hzero : '0'.toNat = 48 := rfl
  have hnine : '9'.toNat = 57 := rfl
  rw [Char.isDigit_iff_toNat, hzero, hnine] at h
  simp [isBlank]
  omega

end Text

/-! ## Reading what is printed -/

namespace Value

open Double

/-- The characters of a printed integer. -/
theorem toList_intText (n : Int) :
    (intText n).toList = (if n < 0 then ['-'] else []) ++ digitChars n.natAbs :=
  String.toList_ofList

/-- A printed integer has no blanks in it. -/
theorem isBlank_of_mem_intText {n : Int} {c : Char} (h : c ∈ (intText n).toList) :
    Text.isBlank c = false := by
  rw [toList_intText] at h
  rcases List.mem_append.mp h with hsign | hdigit
  · split at hsign
    · rw [List.mem_singleton.mp hsign]
      rfl
    · cases hsign
  · exact Text.isBlank_of_isDigit (isDigit_of_mem_digitChars hdigit)

/-- Digits have no sign. -/
theorem spanSign_digitChars (n : Nat) : spanSign (digitChars n) = (false, digitChars n) := by
  have hdigits : ∀ c ∈ digitChars n, c.isDigit = true := fun _ => isDigit_of_mem_digitChars
  unfold spanSign
  split
  · next heq => exact absurd (hdigits '-' (heq ▸ List.mem_cons_self)) (by decide)
  · next heq => exact absurd (hdigits '+' (heq ▸ List.mem_cons_self)) (by decide)
  · rfl

/-- **A printed integer is read back** if it fits 64 bits. -/
theorem readInt?_intText (n : Int) : readInt? (intText n).toList = Word.ofInt? n := by
  have hsign : spanSign (intText n).toList = (decide (n < 0), digitChars n.natAbs) := by
    rw [toList_intText]
    split
    · next h => simp [spanSign, h]
    · next h => simp [spanSign_digitChars, h]
  have hempty : (digitChars n.natAbs).isEmpty = false :=
    List.isEmpty_eq_false_iff.mpr Nat.toDigits_ne_nil
  have hdigits : (digitChars n.natAbs).all Char.isDigit = true :=
    List.all_eq_true.mpr fun _ => isDigit_of_mem_digitChars
  have hvalue : (if decide (n < 0) = true then -(n.natAbs : Int) else n.natAbs) = n := by
    simp only [decide_eq_true_eq]
    split <;> omega
  unfold readInt?
  rw [hsign]
  simp only [hempty, hdigits, natOfDigits_digitChars, Word.ofSign?, hvalue, Bool.not_true,
    Bool.or_self, Bool.false_eq_true, if_false]

/-- Blanks around a printed integer make no difference. -/
theorem readInt?_padded (n : Int64) {left right : String}
    (hleft : ∀ c ∈ left.toList, Text.isBlank c = true)
    (hright : ∀ c ∈ right.toList, Text.isBlank c = true) :
    readInt? (Text.trimBlanks (left ++ (int n).toText ++ right).toList) = some n := by
  have hprinted : (intText n.toInt).toList ≠ [] := by
    rw [toList_intText]
    exact List.append_ne_nil_of_right_ne_nil _ Nat.toDigits_ne_nil
  show readInt? (Text.trimBlanks (left ++ intText n.toInt ++ right).toList) = some n
  rw [String.toList_append, String.toList_append, Text.trimBlanks_append hleft hright hprinted
      (fun _ hc => isBlank_of_mem_intText (List.mem_of_mem_head? hc))
      (fun _ hc => isBlank_of_mem_intText (List.mem_of_mem_getLast? hc)),
    readInt?_intText, Word.ofInt?_toInt]

end Value

/-! ## The natives -/

namespace Console

/-- What is read as an integer is not read as a double. -/
theorem val_of_readInt? {s : String} {n : Int64}
    (h : Double.readInt? (Text.trimBlanks s.toList) = some n) : val (.str s) = .int n := by
  unfold val
  dsimp only
  rw [h]

/-- STR in any case gives the text of a value. -/
theorem call_str {name : String} (hname : Text.upper name = "STR") (v : Value) :
    Natives.call (register []).1 name [v] = answer (.str v.toText) :=
  call_register (List.mem_of_getElem? (i := 1) rfl) hname [v]

/-- VAL in any case reads a text. -/
theorem call_val {name : String} (hname : Text.upper name = "VAL") (v : Value) :
    Natives.call (register []).1 name [v] = answer (val v) :=
  call_register (List.mem_of_getElem? (i := 2) rfl) hname [v]

end Console

/-- **VAL undoes STR on integers.**  For every integer of 64 bits, its text with any blanks around
it is read as an integer and not as a double, and VAL answers with the integer it was.  So it does
with what STR answers.  The natives are called by their names in any case. -/
theorem printed_integer_reads_back (n : Int64) {left right strName valName : String}
    (hleft : ∀ c ∈ left.toList, Text.isBlank c = true)
    (hright : ∀ c ∈ right.toList, Text.isBlank c = true)
    (hstr : Text.upper strName = "STR") (hval : Text.upper valName = "VAL") :
    let printed := left ++ (Value.int n).toText ++ right
    Double.readInt? (Text.trimBlanks printed.toList) = some n ∧
      Console.val (.str printed) = .int n ∧
      Natives.call (Console.register []).1 valName [.str printed] = Console.answer (.int n) ∧
      ∃ v, Natives.call (Console.register []).1 strName [.int n] = Console.answer v ∧
        Natives.call (Console.register []).1 valName [v] = Console.answer (.int n) := by
  intro printed
  have hread : Double.readInt? (Text.trimBlanks printed.toList) = some n :=
    Value.readInt?_padded n hleft hright
  have hbare : Double.readInt? (Text.trimBlanks ("" ++ (Value.int n).toText ++ "").toList) =
      some n := Value.readInt?_padded n (fun _ hc => nomatch hc) (fun _ hc => nomatch hc)
  rw [String.empty_append, String.append_empty] at hbare
  refine ⟨hread, Console.val_of_readInt? hread, ?_, .str (Value.int n).toText,
    Console.call_str hstr _, ?_⟩
  · rw [Console.call_val hval, Console.val_of_readInt? hread]
  · rw [Console.call_val hval, Console.val_of_readInt? hbare]

/-- The least integer, with a no-break space and a tabulator before it and a line end behind it. -/
theorem printed_integer_reads_back_least :
    (∀ c ∈ "\u00a0\t".toList, Text.isBlank c = true) ∧ (∀ c ∈ "\n".toList, Text.isBlank c = true) ∧
      Console.val (.str "\u00a0\t-9223372036854775808\n") = .int (-9223372036854775808) ∧
      Natives.call (Console.register []).1 "Val" [.str "\u00a0\t-9223372036854775808\n"] =
        Console.answer (.int (-9223372036854775808)) ∧
      ∃ v, Natives.call (Console.register []).1 "Str" [.int (-9223372036854775808)] =
          Console.answer v ∧
        Natives.call (Console.register []).1 "Val" [v] =
          Console.answer (.int (-9223372036854775808)) := by
  have hleft : ∀ c ∈ "\u00a0\t".toList, Text.isBlank c = true := List.all_eq_true.mp rfl
  have hright : ∀ c ∈ "\n".toList, Text.isBlank c = true := List.all_eq_true.mp rfl
  obtain ⟨-, hval, hcall, hundone⟩ := @printed_integer_reads_back (-9223372036854775808)
    "\u00a0\t" "\n" "Str" "Val" hleft hright rfl rfl
  exact ⟨hleft, hright, hval, hcall, hundone⟩

end BasicScript
