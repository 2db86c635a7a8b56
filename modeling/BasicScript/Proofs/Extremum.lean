import BasicScript.Host.Console
import BasicScript.Proofs.Double.Nearest

/-!
# MIN and MAX of integers

The natives MIN and MAX compare their arguments as doubles and answer with the first one that no
other betters.  Of integers this is the extreme one as long as no other integer before it becomes
the same double; otherwise they answer with the first that does, which has an absolute value of at
least `2 ^ 53` and is at most 1024 away from the extreme one.

* `Extreme` stands for the two natives, `Extreme.IsExtreme` says what each should find.
* `Alike`: integers that become the same double.
* `Extreme.extremum_eq_argmin`: what the natives find.
* `extremum_exact_unless_alike`: when that is the extreme argument, and how far off it is otherwise.
-/

namespace BasicScript.Console

/-! ## The two natives -/

/-- The natives that choose one of their arguments. -/
inductive Extreme where
  | least
  | greatest

namespace Extreme

/-- The name of the native. -/
def name : Extreme → String
  | least => "MIN"
  | greatest => "MAX"

/-- The order of doubles by which a later argument takes the place of an earlier one. -/
def better : Extreme → Float → Float → Bool
  | least, x, y => x < y
  | greatest, x, y => y < x

/-- An integer is at least as far out as another one. -/
def reaches : Extreme → Int64 → Int64 → Prop
  | least, n, k => n ≤ k
  | greatest, n, k => k ≤ n

/-- An integer of a list that no other one exceeds. -/
structure IsExtreme (e : Extreme) (ns : List Int64) (n : Int64) : Prop where
  mem : n ∈ ns
  reaches : ∀ k ∈ ns, e.reaches n k

/-- The number that is least where the native finds its answer. -/
def rank (e : Extreme) (n : Int64) : ℚ :=
  match e with
  | least => Double.toRat (Double.ofInt n.toInt)
  | greatest => -Double.toRat (Double.ofInt n.toInt)

end Extreme

/-- Two integers become the same double. -/
def Alike (m n : Int64) : Prop :=
  (Double.ofInt m.toInt == Double.ofInt n.toInt) = true

/-- The first of the integers in a list that become the same double as `best`. -/
structure IsFirstAlike (ns : List Int64) (best n : Int64) : Prop where
  mem : n ∈ ns
  alike : Alike n best
  first : ∀ k ∈ ns, Alike k best → ns.idxOf n ≤ ns.idxOf k

/-! ## Integers as doubles -/

/-- The absolute value of an integer of 64 bits. -/
theorem natAbs_toInt_le (n : Int64) : n.toInt.natAbs ≤ 2 ^ 63 := by
  have hlow := n.le_toInt
  have hhigh := n.toInt_lt
  omega

/-- It is within the range of integers that become finite doubles. -/
theorem natAbs_toInt_lt (n : Int64) : n.toInt.natAbs < 2 ^ 64 :=
  Nat.lt_of_le_of_lt (natAbs_toInt_le n) (by decide)

/-- An integer of 64 bits becomes a finite double. -/
theorem isFinite_ofInt_toInt (n : Int64) : Double.isFinite (Double.ofInt n.toInt) = true :=
  (Double.toRat_ofInt (natAbs_toInt_lt n)).1

/-- Two integers are alike if they become doubles of the same value. -/
theorem alike_iff (m n : Int64) :
    Alike m n ↔ Double.toRat (Double.ofInt m.toInt) = Double.toRat (Double.ofInt n.toInt) :=
  Double.beq_iff_toRat_eq (isFinite_ofInt_toInt m) (isFinite_ofInt_toInt n)

/-- There is one first integer that is alike only. -/
theorem IsFirstAlike.unique {ns : List Int64} {best m n : Int64} (hm : IsFirstAlike ns best m)
    (hn : IsFirstAlike ns best n) : m = n :=
  (List.idxOf_inj hm.mem).mp
    (Nat.le_antisymm (hm.first n hn.mem hn.alike) (hn.first m hm.mem hm.alike))

namespace Extreme

variable (e : Extreme)

/-- One integer is better than another if its double ranks before the other one. -/
theorem better_iff (m n : Int64) :
    e.better (Double.ofInt m.toInt) (Double.ofInt n.toInt) = true ↔ e.rank m < e.rank n := by
  cases e with
  | least =>
    exact decide_eq_true_iff.trans
      (Double.lt_iff_toRat_lt (isFinite_ofInt_toInt m) (isFinite_ofInt_toInt n))
  | greatest =>
    exact (decide_eq_true_iff.trans
      (Double.lt_iff_toRat_lt (isFinite_ofInt_toInt n) (isFinite_ofInt_toInt m))).trans
      neg_lt_neg_iff.symm

/-- Two integers rank the same if they are alike. -/
theorem rank_eq_iff (m n : Int64) : e.rank m = e.rank n ↔ Alike m n := by
  rw [alike_iff]
  cases e with
  | least => exact Iff.rfl
  | greatest => exact neg_inj

/-- Rounding keeps the order. -/
theorem rank_le_of_reaches {m n : Int64} (h : e.reaches m n) : e.rank m ≤ e.rank n := by
  have hm := natAbs_toInt_lt m
  have hn := natAbs_toInt_lt n
  cases e with
  | least => exact Double.toRat_ofInt_mono hm hn (Int64.le_iff_toInt_le.mp h)
  | greatest => exact neg_le_neg (Double.toRat_ofInt_mono hn hm (Int64.le_iff_toInt_le.mp h))

/-- Two integers that reach each other are the same. -/
theorem reaches_antisymm {m n : Int64} (hmn : e.reaches m n) (hnm : e.reaches n m) : m = n := by
  cases e with
  | least => exact Int64.le_antisymm hmn hnm
  | greatest => exact Int64.le_antisymm hnm hmn

/-- A list of integers that is not empty has an extreme one. -/
theorem exists_isExtreme {ns : List Int64} (hns : ns ≠ []) : ∃ n, e.IsExtreme ns n := by
  cases e with
  | least =>
    obtain ⟨n, hn⟩ := Option.ne_none_iff_exists'.mp
      (mt (List.argmin_eq_none (f := Int64.toInt)).mp hns)
    exact ⟨n, List.argmin_mem hn,
      fun k hk => Int64.le_iff_toInt_le.mpr (List.le_of_mem_argmin hk hn)⟩
  | greatest =>
    obtain ⟨n, hn⟩ := Option.ne_none_iff_exists'.mp
      (mt (List.argmax_eq_none (f := Int64.toInt)).mp hns)
    exact ⟨n, List.argmax_mem hn,
      fun k hk => Int64.le_iff_toInt_le.mpr (List.le_of_mem_argmax hk hn)⟩

/-- There is one extreme only. -/
theorem IsExtreme.unique {e : Extreme} {ns : List Int64} {m n : Int64} (hm : e.IsExtreme ns m)
    (hn : e.IsExtreme ns n) : m = n :=
  e.reaches_antisymm (hm.reaches n hn.mem) (hn.reaches m hm.mem)

/-! ## The loop -/

/-- The loop over integers, with the best one so far. -/
theorem extremum_eq_foldl (text : String) (best : Option Int64) (ns : List Int64) :
    extremum text e.better (best.map fun n => (.int n, Double.ofInt n.toInt)) (ns.map .int) =
      .ok ((ns.foldl (List.argAux fun m n => e.rank m < e.rank n) best).elim .nil .int) := by
  induction ns generalizing best with
  | nil => cases best <;> rfl
  | cons n ns ih =>
    cases best with
    | none => exact ih (some n)
    | some w =>
      have hstep : List.argAux (fun m n => e.rank m < e.rank n) (some w) n =
          if e.rank n < e.rank w then some n else some w := rfl
      rw [List.foldl_cons, hstep]
      show extremum text e.better (some (if e.better (Double.ofInt n.toInt)
        (Double.ofInt w.toInt) then _ else _)) _ = _
      by_cases h : e.rank n < e.rank w
      · rw [if_pos h, if_pos ((e.better_iff n w).mpr h)]
        exact ih (some n)
      · rw [if_neg h, if_neg (mt (e.better_iff n w).mp h)]
        exact ih (some w)

/-- **What the natives find** among integers is the first whose double no other one betters. -/
theorem extremum_eq_argmin (text : String) (ns : List Int64) :
    extremum text e.better none (ns.map .int) = .ok ((ns.argmin e.rank).elim .nil .int) :=
  e.extremum_eq_foldl text none ns

/-- The first argument whose double no other one betters is the first that becomes the same double
as the extreme one. -/
theorem IsExtreme.isFirstAlike {e : Extreme} {ns : List Int64} {best n : Int64}
    (hbest : e.IsExtreme ns best) (hn : n ∈ ns.argmin e.rank) : IsFirstAlike ns best n := by
  obtain ⟨hmem, hleast, hfirst⟩ := List.mem_argmin_iff.mp hn
  have hrank : e.rank n = e.rank best :=
    le_antisymm (hleast best hbest.mem) (e.rank_le_of_reaches (hbest.reaches n hmem))
  refine ⟨hmem, (e.rank_eq_iff n best).mp hrank, fun k hk halike => hfirst k hk ?_⟩
  rw [hrank, (e.rank_eq_iff k best).mpr halike]

/-- The entry of the native among the natives of the console. -/
theorem mem_natives :
    (e.name, any fun args => reply (extremum e.name e.better none args)) ∈ natives := by
  cases e with
  | least => exact List.mem_of_getElem? (i := 10) rfl
  | greatest => exact List.mem_of_getElem? (i := 11) rfl

/-- What a call of the native with integers answers. -/
theorem call_of_mem_argmin {text : String} (htext : Text.upper text = e.name) {ns : List Int64}
    {n : Int64} (hn : n ∈ ns.argmin e.rank) :
    Natives.call (register []).1 text (ns.map .int) = answer (.int n) := by
  rw [call_register e.mem_natives htext]
  show reply (extremum e.name e.better none (ns.map .int)) = _
  rw [e.extremum_eq_argmin, hn]
  rfl

end Extreme

/-- The integer can be told from the answer. -/
theorem answer_int_inj {m n : Int64} (h : answer (.int m) = answer (.int n)) : m = n := by
  injection h with _ h
  injection h with h
  injection h

/-- **MIN and MAX of integers are exact unless two arguments become the same double.**  Called with
at least one argument and integers only, by their names in any case, the natives answer with one of
the arguments.  It is the first that becomes the same double as the extreme argument, and so it is
the extreme argument just if no other one of this kind stands before that.  Otherwise both have an
absolute value of at least `2 ^ 53`, and there are at most 1024 from one to the other. -/
theorem extremum_exact_unless_alike (e : Extreme) {text : String}
    (htext : Text.upper text = e.name) {ns : List Int64} (hns : ns ≠ []) :
    ∃ n best, e.IsExtreme ns best ∧ n ∈ ns ∧
      Natives.call (register []).1 text (ns.map .int) = answer (.int n) ∧
      IsFirstAlike ns best n ∧
      (e.IsExtreme ns n ↔ IsFirstAlike ns best best) ∧
      (¬ e.IsExtreme ns n → 2 ^ 53 ≤ n.toInt.natAbs ∧ 2 ^ 53 ≤ best.toInt.natAbs ∧
        (n.toInt - best.toInt).natAbs ≤ 1024) := by
  obtain ⟨best, hbest⟩ := e.exists_isExtreme hns
  obtain ⟨n, hn⟩ := Option.ne_none_iff_exists'.mp (mt (List.argmin_eq_none (f := e.rank)).mp hns)
  have hfirst := hbest.isFirstAlike hn
  have hexact : e.IsExtreme ns n ↔ IsFirstAlike ns best best := by
    constructor
    · intro hextreme
      obtain rfl := hextreme.unique hbest
      exact hfirst
    · intro hself
      rw [hfirst.unique hself]
      exact hbest
  refine ⟨n, best, hbest, hfirst.mem, e.call_of_mem_argmin htext hn, hfirst, hexact,
    fun hmissed => ?_⟩
  have hne : n.toInt ≠ best.toInt := fun heq => hmissed (Int64.toInt_inj.mp heq ▸ hbest)
  have halike := (alike_iff n best).mp hfirst.alike
  have hn := Double.far_and_close_of_alike (natAbs_toInt_le n) (natAbs_toInt_le best) hne halike
  have hbest' := Double.far_and_close_of_alike (natAbs_toInt_le best) (natAbs_toInt_le n)
    hne.symm halike.symm
  exact ⟨hn.1, hbest'.1, hn.2⟩

/-- The greatest of three small integers is found.  Of two integers that lie as far apart as
integers with the same double can, the first is answered though it is not the least. -/
theorem extremum_exact_unless_alike_farthest :
    let small : List Int64 := [3, 7, 5]
    let far : List Int64 := [4611686018427390464, 4611686018427389440]
    (Natives.call (register []).1 "Max" (small.map .int) = answer (.int 7) ∧
      Extreme.greatest.IsExtreme small 7) ∧
    (Natives.call (register []).1 "min" (far.map .int) = answer (.int 4611686018427390464) ∧
      ¬ Extreme.least.IsExtreme far 4611686018427390464 ∧
      IsFirstAlike far 4611686018427389440 4611686018427390464 ∧
      Int64.toInt 4611686018427390464 - Int64.toInt 4611686018427389440 = 1024) := by
  intro small far
  constructor
  · have hmax : Natives.call (register []).1 "Max" (small.map .int) = answer (.int 7) := rfl
    obtain ⟨n, best, hbest, -, hcall, -, -, hfar⟩ :=
      @extremum_exact_unless_alike .greatest "Max" rfl small (List.cons_ne_nil _ _)
    obtain rfl := answer_int_inj (hmax.symm.trans hcall)
    refine ⟨hmax, ?_⟩
    -- An argument that is not the extreme one would lie beyond `2 ^ 53`.
    by_contra hmissed
    exact absurd (hfar hmissed).1 (by decide)
  · have hmin : Natives.call (register []).1 "min" (far.map .int) =
        answer (.int 4611686018427390464) := rfl
    obtain ⟨n, best, hbest, -, hcall, hfirst, -, -⟩ :=
      @extremum_exact_unless_alike .least "min" rfl far (List.cons_ne_nil _ _)
    obtain rfl := answer_int_inj (hmin.symm.trans hcall)
    have hleast : Extreme.least.IsExtreme far 4611686018427389440 := by
      refine ⟨by simp [far], fun k hk => ?_⟩
      rcases List.mem_pair.mp hk with rfl | rfl
      · exact (by decide : (4611686018427389440 : Int64) ≤ 4611686018427390464)
      · exact Int64.le_refl _
    obtain rfl := hbest.unique hleast
    refine ⟨hmin, fun hextreme => ?_, hfirst, by decide⟩
    exact absurd (hextreme.unique hbest) (by decide)

/-- MIN answers `2 ^ 53 + 1` though the next argument is `2 ^ 53`. -/
theorem least_integer_missed :
    Natives.call (register []).1 "MIN" [.int 9007199254740993, .int 9007199254740992] =
        answer (.int 9007199254740993) ∧
      ¬ Extreme.least.IsExtreme [9007199254740993, 9007199254740992] 9007199254740993 := by
  refine ⟨rfl, fun hextreme => ?_⟩
  have hle : (9007199254740993 : Int64) ≤ 9007199254740992 :=
    hextreme.reaches _ (List.mem_cons_of_mem _ List.mem_cons_self)
  exact absurd hle (by decide)

end BasicScript.Console
