import BasicScript.Syntax.Ident

/-!
# Upper case is a normal form

A text in upper case does not change when it is put into upper case again.  The mapping works
character by character, so this is a matter of the tables: no character that they yield is one that
they map.  Characters that change in step are compared run by run, and not one by one.

* `Text.upper_upper`: upper case of upper case.
* `Text.upper_congr`: upper case does away with differences in the case of Latin letters.
* `Text.mem_of_mark_mem_upper` and `Text.head?_of_mark_upper`: dots, underscores and their like are
  in a text as soon as they are in its upper case, and at its beginning as soon as they are there.
* `Ident.ofString_name`: the name of an identifier spells that identifier.
-/

namespace BasicScript.Text

/-! ## Which codes are mapped -/

/-- The run maps the code. -/
def CaseRun.covers (r : CaseRun) (n : Nat) : Bool :=
  Nat.ble r.first n && Nat.ble n r.last && Nat.beq ((n - r.first) % r.step) 0

/-- The small letters of ASCII, as a run like those of the tables. -/
def asciiRun : CaseRun := ⟨0x61, 0x7A, 1, 0x41⟩

/-- The codes of the tables that change to upper case, as runs: a code with an expansion is a run of
its own. -/
def tabled : List CaseRun :=
  upperRuns ++ upperExpansions.map fun e => ⟨e.code, e.code, 2, e.code⟩

/-- The code is its own upper case. -/
def isFixed (n : Nat) : Bool :=
  (asciiRun :: tabled).all fun r => !r.covers n

/-- No code that a run yields is covered by another one: they lie apart, or they alternate. -/
def CaseRun.yieldsOutside (r s : CaseRun) : Bool :=
  Nat.blt (r.target + (r.last - r.first)) s.first || Nat.blt s.last r.target ||
    ((Nat.beq r.step 2 || Nat.beq r.first r.last) && Nat.beq s.step 2 &&
      Nat.beq ((r.target + s.first) % 2) 1)

/-- The tables, run by run. -/
theorem runs_yieldOutside :
    ((asciiRun :: upperRuns).all fun r => (asciiRun :: tabled).all r.yieldsOutside) = true := by
  decide +kernel

/-- The tables, expansion by expansion. -/
theorem expansions_fixed :
    ((upperExpansions.flatMap (·.form)).eraseDups.all isFixed) = true := by
  decide +kernel

/-- The tables begin after ASCII. -/
theorem tabled_beyond_ascii : (tabled.all fun r => Nat.ble 128 r.first) = true := by
  decide +kernel

/-- A run maps the codes between its ends that lie a multiple of its step from the first one. -/
theorem CaseRun.covers_iff {r : CaseRun} {n : Nat} :
    r.covers n = true ↔ r.first ≤ n ∧ n ≤ r.last ∧ (n - r.first) % r.step = 0 := by
  simp [covers, and_assoc]

/-- A code is its own upper case if no run maps it. -/
theorem isFixed_iff {n : Nat} :
    isFixed n = true ↔ ∀ r ∈ asciiRun :: tabled, r.covers n = false := by
  simp [isFixed]

/-- What a run yields is covered by no other run. -/
theorem CaseRun.not_covers_of_yieldsOutside {r s : CaseRun} (h : r.yieldsOutside s = true) {i : Nat}
    (hi : i ≤ r.last - r.first) (hstep : i % r.step = 0) : s.covers (r.target + i) = false := by
  rw [Bool.eq_false_iff]
  intro hcovers
  obtain ⟨hfirst, hlast, hmod⟩ := covers_iff.mp hcovers
  simp only [yieldsOutside, Nat.blt_eq, Nat.beq_eq, Bool.or_eq_true, Bool.and_eq_true] at h
  rcases h with (h | h) | ⟨⟨h, hs⟩, hparity⟩
  · omega
  · omega
  · have heven : i % 2 = 0 := by
      rcases h with h | h
      · rwa [h] at hstep
      · have : i = 0 := by omega
        rw [this]
    rw [hs] at hmod
    omega

/-- What a run yields is its own upper case. -/
theorem isFixed_of_run {r : CaseRun} (hr : r ∈ asciiRun :: upperRuns) {i : Nat}
    (hi : i ≤ r.last - r.first) (hstep : i % r.step = 0) : isFixed (r.target + i) = true := by
  have htables := runs_yieldOutside
  simp only [List.all_eq_true] at htables
  exact isFixed_iff.mpr fun s hs => CaseRun.not_covers_of_yieldsOutside (htables r hr s hs) hi hstep

/-- What an expansion yields is its own upper case. -/
theorem isFixed_of_expansion {e : CaseExpansion} (he : e ∈ upperExpansions) {n : Nat}
    (hn : n ∈ e.form) : isFixed n = true := by
  have htables := expansions_fixed
  rw [List.all_eq_true] at htables
  exact htables n (List.mem_eraseDups.mpr (List.mem_flatMap.mpr ⟨e, he, hn⟩))

/-! ## Characters -/

/-- A code that is no character stands for the null character. -/
theorem toNat_ofNat_or (n : Nat) : (Char.ofNat n).toNat = n ∨ Char.ofNat n = '\x00' := by
  by_cases hvalid : n.isValidChar
  · exact .inl (toNat_ofNat hvalid)
  · exact .inr (dif_neg hvalid)

/-- The null character is fixed too. -/
theorem isFixed_ofNat {n : Nat} (h : isFixed n = true) : isFixed (Char.ofNat n).toNat = true := by
  rcases toNat_ofNat_or n with hcode | hnull
  · rw [hcode]
    exact h
  · rw [hnull]
    decide +kernel

/-- A run yields a code for those that it covers. -/
theorem CaseRun.map?_eq_some {r : CaseRun} {n t : Nat} :
    r.map? n = some t ↔ r.covers n = true ∧ r.target + (n - r.first) = t := by
  unfold map?
  rw [covers_iff]
  split
  · next h => simp [h]
  · next h => simp [h]

/-- No run is found for a code if none maps it. -/
theorem findRun_eq_none {n : Nat} :
    findRun upperRuns n = none ↔ ∀ r ∈ upperRuns, r.covers n = false := by
  unfold findRun
  rw [List.findSome?_eq_none_iff]
  refine forall_congr' fun r => forall_congr' fun _ => ?_
  rw [Option.eq_none_iff_forall_ne_some, Bool.eq_false_iff]
  constructor
  · intro h hcovers
    exact h _ (CaseRun.map?_eq_some.mpr ⟨hcovers, rfl⟩)
  · intro h t ht
    exact h (CaseRun.map?_eq_some.mp ht).1

/-- No expansion is found for a code if none is for it. -/
theorem findExpansion_eq_none {n : Nat} :
    findExpansion upperExpansions n = none ↔ ∀ e ∈ upperExpansions, e.code ≠ n := by
  simp [findExpansion]

/-- A code beyond ASCII is fixed if nothing is found for it. -/
theorem isFixed_iff_not_found {n : Nat} (hn : 128 ≤ n) :
    isFixed n = true ↔
      findRun upperRuns n = none ∧ findExpansion upperExpansions n = none := by
  have hascii : asciiRun.covers n = false := by
    rw [Bool.eq_false_iff, Ne, CaseRun.covers_iff]
    simp only [asciiRun]
    omega
  have hsingle : ∀ e : CaseExpansion,
      CaseRun.covers ⟨e.code, e.code, 2, e.code⟩ n = false ↔ e.code ≠ n := by
    intro e
    rw [Bool.eq_false_iff, Ne, CaseRun.covers_iff]
    dsimp only
    omega
  rw [isFixed_iff, findRun_eq_none, findExpansion_eq_none]
  simp only [tabled, List.forall_mem_cons, List.forall_mem_append, List.forall_mem_map, hascii,
    hsingle, true_and]

/-- An ASCII character is fixed unless it is a small letter. -/
theorem isFixed_iff_of_ascii {n : Nat} (hn : n < 128) :
    isFixed n = true ↔ asciiRun.covers n = false := by
  have hbeyond := tabled_beyond_ascii
  rw [List.all_eq_true] at hbeyond
  rw [isFixed_iff, List.forall_mem_cons]
  refine and_iff_left ?_
  intro r hr
  have hfirst := Nat.le_of_ble_eq_true (hbeyond r hr)
  rw [Bool.eq_false_iff, Ne, CaseRun.covers_iff]
  omega

/-- A character that nothing maps stays as it is. -/
theorem upperChar_of_isFixed {c : Char} (h : isFixed c.toNat = true) : upperChar c = [c] := by
  unfold upperChar
  split
  · next hascii =>
    have hn : c.toNat < 128 := hascii
    rw [isFixed_iff_of_ascii hn, Bool.eq_false_iff, Ne, CaseRun.covers_iff] at h
    unfold Char.toUpper
    rw [dif_neg]
    intro hsmall
    exact h ⟨hsmall.1, hsmall.2, Nat.mod_one _⟩
  · next hascii =>
    have hn : 128 ≤ c.toNat := Nat.le_of_not_lt hascii
    obtain ⟨hrun, hexpansion⟩ := (isFixed_iff_not_found hn).mp h
    rw [hrun, hexpansion]

/-- Where a character in upper case comes from: the letters of ASCII, a run, an expansion, or itself. -/
theorem mem_upperChar_cases {c d : Char} (h : d ∈ upperChar c) :
    (c.toNat < 128 ∧ d = c.toUpper) ∨
    (∃ r ∈ upperRuns, r.covers c.toNat = true ∧ d = Char.ofNat (r.target + (c.toNat - r.first))) ∨
    (∃ e ∈ upperExpansions, ∃ n ∈ e.form, d = Char.ofNat n) ∨
    (isFixed c.toNat = true ∧ d = c) := by
  unfold upperChar at h
  split at h
  · next hascii => exact .inl ⟨hascii, List.mem_singleton.mp h⟩
  · next hascii =>
    cases hrun : findRun upperRuns c.toNat with
    | some t =>
      rw [hrun, List.mem_singleton] at h
      obtain ⟨r, hr, hmap⟩ := List.exists_of_findSome?_eq_some hrun
      obtain ⟨hcovers, rfl⟩ := CaseRun.map?_eq_some.mp hmap
      exact .inr (.inl ⟨r, hr, hcovers, h⟩)
    | none =>
      rw [hrun] at h
      cases hexpansion : findExpansion upperExpansions c.toNat with
      | some ns =>
        rw [hexpansion] at h
        obtain ⟨n, hn, hd⟩ := List.mem_map.mp h
        obtain ⟨e, he, rfl⟩ := Option.map_eq_some_iff.mp hexpansion
        exact .inr (.inr (.inl ⟨e, List.mem_of_find?_eq_some he, n, hn, hd.symm⟩))
      | none =>
        rw [hexpansion] at h
        have hfixed := (isFixed_iff_not_found (Nat.le_of_not_lt hascii)).mpr ⟨hrun, hexpansion⟩
        exact .inr (.inr (.inr ⟨hfixed, List.mem_singleton.mp h⟩))

/-- A small letter of ASCII changes by the distance between the two alphabets. -/
theorem toNat_toUpper {c : Char} (h : 'a'.val ≤ c.val ∧ c.val ≤ 'z'.val) :
    c.toUpper.toNat = 0x41 + (c.toNat - 0x61) := by
  have hfirst : 0x61 ≤ c.toNat := h.1
  have hlast : c.toNat ≤ 0x7A := h.2
  have hshift : ('A'.val - 'a'.val).toNat = 2 ^ 32 - 32 := by decide
  unfold Char.toUpper
  rw [dif_pos h]
  show (c.val + ('A'.val - 'a'.val)).toNat = _
  rw [UInt32.toNat_add, hshift]
  change (c.toNat + _) % _ = _
  omega

/-- What a character becomes in upper case is fixed. -/
theorem isFixed_of_mem_upperChar {c d : Char} (h : d ∈ upperChar c) : isFixed d.toNat = true := by
  rcases mem_upperChar_cases h with ⟨hascii, rfl⟩ | ⟨r, hr, hcovers, rfl⟩ | ⟨e, he, n, hn, rfl⟩ |
    ⟨hfixed, rfl⟩
  · by_cases hsmall : 'a'.val ≤ c.val ∧ c.val ≤ 'z'.val
    · have hlast : c.toNat ≤ 0x7A := hsmall.2
      rw [toNat_toUpper hsmall]
      exact isFixed_of_run List.mem_cons_self (Nat.sub_le_sub_right hlast _) (Nat.mod_one _)
    · have hsame : c.toUpper = c := dif_neg hsmall
      rw [hsame, isFixed_iff_of_ascii hascii, Bool.eq_false_iff, Ne, CaseRun.covers_iff]
      exact fun hcovers => hsmall ⟨hcovers.1, hcovers.2.1⟩
  · obtain ⟨hfirst, hlast, hstep⟩ := CaseRun.covers_iff.mp hcovers
    exact isFixed_ofNat (isFixed_of_run (List.mem_cons_of_mem _ hr) (by omega) hstep)
  · exact isFixed_ofNat (isFixed_of_expansion he hn)
  · exact hfixed

/-! ## Marks

The marks of ASCII, such as the dot and the underscore, and its small letters are no upper case of
other characters. -/

/-- A code of ASCII that is neither null nor that of a capital letter. -/
def isMark (n : Nat) : Bool :=
  Nat.blt 0 n && Nat.blt n 128 && (Nat.blt n 0x41 || Nat.blt 0x5A n)

/-- The run yields capital letters of ASCII or nothing of ASCII. -/
def CaseRun.yieldsNoMark (r : CaseRun) : Bool :=
  Nat.ble 128 r.target || (Nat.ble 0x41 r.target && Nat.ble (r.target + (r.last - r.first)) 0x5A)

/-- No run yields a mark of ASCII. -/
theorem runs_yieldNoMark : (upperRuns.all (·.yieldsNoMark)) = true := by
  decide +kernel

/-- No expansion is empty or has a mark of ASCII in it. -/
theorem expansions_noMark :
    (upperExpansions.all fun e => !e.form.isEmpty && e.form.all fun n => !isMark n) = true := by
  decide +kernel

/-- The marks of ASCII are all of its characters but the capital letters and the null character. -/
theorem isMark_iff {n : Nat} :
    isMark n = true ↔ 0 < n ∧ n < 128 ∧ (n < 0x41 ∨ 0x5A < n) := by
  simp [isMark, and_assoc]

/-- Only the code of a mark gives a mark. -/
theorem isMark_of_ofNat {n : Nat} (h : isMark (Char.ofNat n).toNat = true) : isMark n = true := by
  rcases toNat_ofNat_or n with hcode | hnull
  · rwa [hcode] at h
  · rw [hnull] at h
    cases h

/-- A mark is the upper case of itself alone. -/
theorem eq_of_mark_mem_upperChar {c d : Char} (hmark : isMark d.toNat = true)
    (h : d ∈ upperChar c) : d = c := by
  rcases mem_upperChar_cases h with ⟨-, rfl⟩ | ⟨r, hr, hcovers, rfl⟩ | ⟨e, he, n, hn, rfl⟩ | ⟨-, heq⟩
  · by_cases hsmall : 'a'.val ≤ c.val ∧ c.val ≤ 'z'.val
    · have hfirst : 0x61 ≤ c.toNat := hsmall.1
      have hlast : c.toNat ≤ 0x7A := hsmall.2
      rw [toNat_toUpper hsmall, isMark_iff] at hmark
      omega
    · exact dif_neg hsmall
  · obtain ⟨hfirst, hlast, -⟩ := CaseRun.covers_iff.mp hcovers
    have hyields := List.all_eq_true.mp runs_yieldNoMark r hr
    simp only [CaseRun.yieldsNoMark, Bool.or_eq_true, Bool.and_eq_true, Nat.ble_eq] at hyields
    have hcode := isMark_iff.mp (isMark_of_ofNat hmark)
    omega
  · have hform := (Bool.and_eq_true_iff.mp (List.all_eq_true.mp expansions_noMark e he)).2
    have hnone := List.all_eq_true.mp hform n hn
    rw [isMark_of_ofNat hmark] at hnone
    cases hnone
  · exact heq

/-- No character vanishes in upper case. -/
theorem upperChar_ne_nil (c : Char) : upperChar c ≠ [] := by
  unfold upperChar
  split
  · exact List.cons_ne_nil _ _
  · cases findRun upperRuns c.toNat with
    | some t => exact List.cons_ne_nil _ _
    | none =>
      cases hexpansion : findExpansion upperExpansions c.toNat with
      | some ns =>
        obtain ⟨e, he, rfl⟩ := Option.map_eq_some_iff.mp hexpansion
        have hform := List.all_eq_true.mp expansions_noMark e (List.mem_of_find?_eq_some he)
        intro hempty
        rw [List.map_eq_nil_iff.mp hempty] at hform
        cases hform
      | none => exact List.cons_ne_nil _ _

/-! ## Texts -/

/-- **Upper case is a normal form.** -/
theorem upper_upper (s : String) : upper (upper s) = upper s := by
  have hfixed : ∀ cs : List Char, (∀ c ∈ cs, upperChar c = [c]) → cs.flatMap upperChar = cs := by
    intro cs
    induction cs with
    | nil => intro _; rfl
    | cons c cs ih =>
      intro h
      rw [List.flatMap_cons, h c List.mem_cons_self,
        ih fun c' hc' => h c' (List.mem_cons_of_mem c hc')]
      rfl
  unfold upper
  rw [String.toList_ofList, hfixed]
  intro d hd
  obtain ⟨c, -, hc⟩ := List.mem_flatMap.mp hd
  exact upperChar_of_isFixed (isFixed_of_mem_upperChar hc)

/-- A small letter that stands for a capital one has the same upper case. -/
theorem upperChar_toLower (c : Char) : upperChar c.toLower = upperChar c := by
  by_cases hlarge : 'A'.val ≤ c.val ∧ c.val ≤ 'Z'.val
  · have hfirst : 0x41 ≤ c.toNat := hlarge.1
    have hlast : c.toNat ≤ 0x5A := hlarge.2
    have hshift : ('a'.val - 'A'.val).toNat = 32 := by decide
    have hlower : c.toLower.toNat = c.toNat + 32 := by
      unfold Char.toLower
      rw [dif_pos hlarge]
      show (c.val + ('a'.val - 'A'.val)).toNat = _
      rw [UInt32.toNat_add, hshift]
      change (c.toNat + 32) % _ = _
      omega
    have hsmall : 'a'.val ≤ c.toLower.val ∧ c.toLower.val ≤ 'z'.val := by
      show 0x61 ≤ c.toLower.toNat ∧ c.toLower.toNat ≤ 0x7A
      omega
    have hback : c.toLower.toUpper = c := by
      apply Char.ext
      apply UInt32.toNat_inj.mp
      show c.toLower.toUpper.toNat = c.toNat
      rw [toNat_toUpper hsmall]
      omega
    have hupper : c.toUpper = c := by
      apply dif_neg
      intro h
      have hbeyond : 0x61 ≤ c.toNat := h.1
      omega
    have hascii : c.val < 128 := show c.toNat < 128 by omega
    have hascii' : c.toLower.val < 128 := show c.toLower.toNat < 128 by omega
    unfold upperChar
    rw [if_pos hascii, if_pos hascii', hback, hupper]
  · have hsame : c.toLower = c := dif_neg hlarge
    rw [hsame]

/-- Texts that differ in the case of Latin letters only have one upper case. -/
theorem upper_congr {s t : String} (h : eqAsciiCase s t = true) : upper s = upper t := by
  have hlower : ∀ cs : List Char,
      (cs.map Char.toLower).flatMap upperChar = cs.flatMap upperChar := by
    intro cs
    rw [List.flatMap_map]
    simp only [upperChar_toLower]
  unfold upper
  rw [← hlower s.toList, ← hlower t.toList, eqCharsAsciiCase_iff.mp h]

/-- Upper case brings in no marks. -/
theorem mem_of_mark_mem_upper {s : String} {d : Char} (hmark : isMark d.toNat = true)
    (h : d ∈ (upper s).toList) : d ∈ s.toList := by
  unfold upper at h
  rw [String.toList_ofList] at h
  obtain ⟨c, hc, hd⟩ := List.mem_flatMap.mp h
  rw [eq_of_mark_mem_upperChar hmark hd]
  exact hc

/-- A text whose upper case begins with a mark begins with that mark. -/
theorem head?_of_mark_upper {s : String} {d : Char} (hmark : isMark d.toNat = true)
    (h : (upper s).toList.head? = some d) : s.toList.head? = some d := by
  unfold upper at h
  rw [String.toList_ofList] at h
  cases hs : s.toList with
  | nil =>
    rw [hs] at h
    cases h
  | cons c cs =>
    obtain ⟨e, rest, hform⟩ := List.exists_cons_of_ne_nil (upperChar_ne_nil c)
    rw [hs, List.flatMap_cons, hform] at h
    cases h
    rw [eq_of_mark_mem_upperChar hmark (hform ▸ List.mem_cons_self)]
    rfl

end BasicScript.Text

namespace BasicScript

/-- The name of an identifier is in upper case. -/
theorem Ident.upper_name (x : Ident) : Text.upper x.name = x.name := by
  obtain ⟨s, h⟩ := x.canonical
  rw [h, Text.upper_upper]

/-- A text that is not in upper case is no name. -/
theorem Ident.name_ne (x : Ident) {s : String} (h : Text.upper s ≠ s) : x.name ≠ s := by
  intro heq
  rw [← heq] at h
  exact h x.upper_name

/-- Names that differ in the case of Latin letters only do not differ. -/
theorem Ident.name_eq_of_eqAsciiCase {x y : Ident}
    (h : Text.eqAsciiCase x.name y.name = true) : x.name = y.name := by
  rw [← x.upper_name, ← y.upper_name]
  exact Text.upper_congr h

/-- The name of an identifier spells that identifier. -/
theorem Ident.ofString_name (i : Ident) : Ident.ofString i.name = i := by
  obtain ⟨name, spelling, rfl⟩ := i
  exact Ident.ext (Text.upper_upper spelling)

end BasicScript
