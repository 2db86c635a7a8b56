import BasicScript.Proofs.Double.Order
import BasicScript.Value.Operator

/-!
# Comparison

How two values compare depends on their kinds: numbers as numbers, a text with another text or with a
number or a truth value as texts, two arrays or maps by their contents, and all others by their
kinds.  Whichever rule applies to two values applies to them from the other side as well, and says the
reverse there.

* `Value.Compares`: the rules, one constructor for each.
* `Value.compares_iff`: comparing two values follows the rules.
* `Value.Compares.swap`: the rules are symmetric.
* `Value.ComparedCoherently`: what a program may rely on when it compares two values.
* `comparison_coherent`: any two values are compared so.
-/

namespace BasicScript

namespace Value

/-! ## Equality of values kind by kind -/

mutual

/-- Values are the same from both sides. -/
theorem same_comm : ∀ a b : Value, same a b = same b a
  | .nil, b => by cases b <;> rfl
  | .bool p, b => by
    cases b with
    | bool q => exact BEq.comm
    | _ => rfl
  | .int m, b => by
    cases b with
    | int n => exact BEq.comm
    | _ => rfl
  | .float x, b => by
    cases b with
    | float y => exact BEq.comm
    | _ => rfl
  | .str s, b => by
    cases b with
    | str t => exact BEq.comm
    | _ => rfl
  | .array as, b => by
    cases b with
    | array bs => exact sameItems_comm as bs
    | _ => rfl
  | .map fs, b => by
    cases b with
    | map gs => exact sameFields_comm fs gs
    | _ => rfl

/-- Two lists of values are the same from both sides. -/
theorem sameItems_comm : ∀ as bs : List Value, sameItems as bs = sameItems bs as
  | [], [] => rfl
  | [], _ :: _ => rfl
  | _ :: _, [] => rfl
  | a :: as, b :: bs => by
    unfold sameItems
    rw [same_comm a b, sameItems_comm as bs]

theorem sameFields_comm : ∀ fs gs : List (String × Value), sameFields fs gs = sameFields gs fs
  | [], [] => rfl
  | [], _ :: _ => rfl
  | _ :: _, [] => rfl
  | (k, a) :: fs, (l, b) :: gs => by
    unfold sameFields
    rw [BEq.comm (a := k), same_comm a b, sameFields_comm fs gs]

end

/-! ## The rules -/

/-- Two texts compare the other way round from the other side. -/
theorem swap_compareText (s t : String) : (compareText s t).swap = compareText t s := by
  unfold compareText
  rcases lt_trichotomy s t with hlt | rfl | hgt
  · rw [if_pos hlt, if_neg hlt.asymm, if_neg hlt.ne']
    rfl
  · rw [if_neg (lt_irrefl s), if_pos rfl]
    rfl
  · rw [if_neg hgt.asymm, if_neg hgt.ne', if_pos hgt]
    rfl

/-- Two texts compare as equal only if they are the same text. -/
theorem compareText_eq_iff {s t : String} : compareText s t = .eq ↔ s = t := by
  unfold compareText
  constructor
  · intro h
    split at h
    · cases h
    · split at h
      · assumption
      · cases h
  · rintro rfl
    rw [if_neg (lt_irrefl s), if_pos rfl]

/-- The rules for comparing two values. -/
inductive Compares : Value → Value → Option Ordering → Prop
  | integers (m n : Int64) : Compares (.int m) (.int n) (some (compare m.toInt n.toInt))
  /-- As soon as one of two numbers is a double, both are compared as doubles. -/
  | numbers {a b : Value} {x y : Float} (ha : a.toFloat? = some x) (hb : b.toFloat? = some y)
      (h : a = .float x ∨ b = .float y) : Compares a b (compareFloat? x y)
  | texts (s t : String) : Compares (.str s) (.str t) (some (compareText s t))
  | textFirst (s : String) {b : Value} (hb : b.isPlain = true) :
      Compares (.str s) b (some (compareText s b.toText))
  | textLast {a : Value} (t : String) (ha : a.isPlain = true) :
      Compares a (.str t) (some (compareText a.toText t))
  | truthValues (p q : Bool) : Compares (.bool p) (.bool q) (some (compareBool p q))
  | nils : Compares .nil .nil (some .eq)
  | arrays (as bs : List Value) :
      Compares (.array as) (.array bs) (if sameItems as bs then some .eq else none)
  | maps (fs gs : List (String × Value)) :
      Compares (.map fs) (.map gs) (if sameFields fs gs then some .eq else none)
  /-- All that is left are values of different kinds, and none is compared as a text. -/
  | kinds {a b : Value} (h : a.rank ≠ b.rank) (hfirst : ∀ s, a = .str s → b.isPlain = false)
      (hlast : ∀ t, b = .str t → a.isPlain = false) : Compares a b (some (compare a.rank b.rank))

/-- Values of different kinds that are not compared as texts are compared by their kinds. -/
theorem compare?_of_kinds {a b : Value} (hrank : a.rank ≠ b.rank)
    (hfirst : ∀ s, a = .str s → b.isPlain = false)
    (hlast : ∀ t, b = .str t → a.isPlain = false) :
    compare? a b = some (compare a.rank b.rank) := by
  cases a with
  | nil =>
    cases b with
    | nil => exact absurd rfl hrank
    | _ => rfl
  | bool p =>
    cases b with
    | bool q => exact absurd rfl hrank
    | str t => cases hlast t rfl
    | _ => rfl
  | int m =>
    cases b with
    | int n | float y => exact absurd rfl hrank
    | str t => cases hlast t rfl
    | _ => rfl
  | float x =>
    cases b with
    | int n | float y => exact absurd rfl hrank
    | str t => cases hlast t rfl
    | _ => rfl
  | str s =>
    cases b with
    | str t => exact absurd rfl hrank
    | bool q | int n | float y => cases hfirst s rfl
    | _ => rfl
  | array as =>
    cases b with
    | array bs => exact absurd rfl hrank
    | _ => rfl
  | map fs =>
    cases b with
    | map gs => exact absurd rfl hrank
    | _ => rfl

namespace Compares

variable {a b : Value} {o : Option Ordering}

/-- What holds of two values holds the other way around from the other side. -/
theorem swap (h : Compares a b o) : Compares b a (o.map Ordering.swap) := by
  cases h with
  | integers m n =>
    rw [Option.map_some, Int.compare_swap]
    exact .integers n m
  | numbers ha hb hdouble =>
    rw [swap_compareFloat?]
    exact .numbers hb ha hdouble.symm
  | texts s t =>
    rw [Option.map_some, swap_compareText]
    exact .texts t s
  | textFirst s hb =>
    rw [Option.map_some, swap_compareText]
    exact .textLast s hb
  | textLast t ha =>
    rw [Option.map_some, swap_compareText]
    exact .textFirst t ha
  | truthValues p q =>
    have hswap : (compareBool p q).swap = compareBool q p := by cases p <;> cases q <;> rfl
    rw [Option.map_some, hswap]
    exact .truthValues q p
  | nils => exact .nils
  | arrays as bs =>
    rw [apply_ite (Option.map Ordering.swap), sameItems_comm]
    exact .arrays bs as
  | maps fs gs =>
    rw [apply_ite (Option.map Ordering.swap), sameFields_comm]
    exact .maps gs fs
  | kinds hrank hfirst hlast =>
    rw [Option.map_some, Nat.compare_swap]
    exact .kinds hrank.symm hlast hfirst

/-- No two rules say different things of the same values. -/
theorem eq (h : Compares a b o) : compare? a b = o := by
  cases h with
  | numbers ha hb hdouble =>
    rcases hdouble with rfl | rfl
    · cases b <;> cases ha <;> cases hb <;> rfl
    · cases a <;> cases ha <;> cases hb <;> rfl
  | textFirst s hb => cases b <;> cases hb <;> rfl
  | textLast t ha => cases a <;> cases ha <;> rfl
  | kinds hrank hfirst hlast => exact compare?_of_kinds hrank hfirst hlast
  | _ => rfl

end Compares

/-- Comparing two values follows the rules. -/
theorem compares (a b : Value) : Compares a b (compare? a b) := by
  cases a with
  | nil =>
    cases b with
    | nil => exact .nils
    | _ => exact .kinds (by simp [rank]) nofun fun _ _ => rfl
  | bool p =>
    cases b with
    | bool q => exact .truthValues p q
    | str t => exact .textLast t rfl
    | _ => exact .kinds (by simp [rank]) nofun nofun
  | int m =>
    cases b with
    | int n => exact .integers m n
    | float y => exact .numbers rfl rfl (.inr rfl)
    | str t => exact .textLast t rfl
    | _ => exact .kinds (by simp [rank]) nofun nofun
  | float x =>
    cases b with
    | int n | float y => exact .numbers rfl rfl (.inl rfl)
    | str t => exact .textLast t rfl
    | _ => exact .kinds (by simp [rank]) nofun nofun
  | str s =>
    cases b with
    | str t => exact .texts s t
    | bool q | int n | float y => exact .textFirst s rfl
    | _ => exact .kinds (by simp [rank]) (fun _ _ => rfl) nofun
  | array as =>
    cases b with
    | array bs => exact .arrays as bs
    | _ => exact .kinds (by simp [rank]) nofun fun _ _ => rfl
  | map fs =>
    cases b with
    | map gs => exact .maps fs gs
    | _ => exact .kinds (by simp [rank]) nofun fun _ _ => rfl

/-- **Comparing two values follows the rules**, and nothing else does. -/
theorem compares_iff {a b : Value} {o : Option Ordering} : Compares a b o ↔ compare? a b = o := by
  constructor
  · exact Compares.eq
  · rintro rfl
    exact compares a b

/-! ## Which values are equal, and which do not compare -/

/-- The value is a text, and the other one is a number or a truth value with this text. -/
def IsTextOf (a b : Value) : Prop :=
  a = .str b.toText ∧ b.isPlain = true

/-- Two arrays or two maps that are not the same. -/
def DifferentContents (a b : Value) : Prop :=
  ((∃ as bs, a = .array as ∧ b = .array bs) ∨ ∃ fs gs, a = .map fs ∧ b = .map gs) ∧
    a.same b = false

/-- A double that is no number. -/
def isNaN : Value → Bool
  | float x => x.isNaN
  | _ => false

/-- Two numbers one of which is `NaN`. -/
def NotANumber (a b : Value) : Prop :=
  a.isNumeric = true ∧ b.isNumeric = true ∧ (a.isNaN = true ∨ b.isNaN = true)

/-- A value that has a double is a number, and it is NaN just if the double is. -/
theorem isNumeric_of_toFloat? {a : Value} {x : Float} (h : a.toFloat? = some x) :
    a.isNumeric = true ∧ x.isNaN = a.isNaN := by
  cases a with
  | int m =>
    cases h
    exact ⟨rfl, Double.isNaN_ofInt m.toInt⟩
  | float y =>
    cases h
    exact ⟨rfl, rfl⟩
  | _ => cases h

/-- All numbers are of one kind. -/
theorem rank_of_isNumeric {a : Value} (h : a.isNumeric = true) : a.rank = 2 := by
  cases a with
  | int m | float x => rfl
  | _ => cases h

namespace Compares

variable {a b : Value} {o : Option Ordering}

/-- Values of different kinds are equal as numbers or as texts only. -/
theorem kinds_of_eq (h : Compares a b o) (ho : o = some .eq) (hkinds : a.kindName ≠ b.kindName) :
    a.isNumeric = true ∧ b.isNumeric = true ∨ IsTextOf a b ∨ IsTextOf b a := by
  cases h with
  | numbers ha hb _ => exact .inl ⟨(isNumeric_of_toFloat? ha).1, (isNumeric_of_toFloat? hb).1⟩
  | textFirst s hb =>
    have heq := compareText_eq_iff.mp (Option.some.inj ho)
    exact .inr (.inl ⟨congrArg str heq, hb⟩)
  | textLast t ha =>
    have heq := compareText_eq_iff.mp (Option.some.inj ho)
    exact .inr (.inr ⟨congrArg str heq.symm, ha⟩)
  | kinds hrank _ _ => exact absurd (Nat.compare_eq_eq.mp (Option.some.inj ho)) hrank
  | _ => exact absurd rfl hkinds

/-- Whether two values are the same, as a comparison that has no order. -/
theorem ite_eq_none_iff_same {t : Bool} :
    (if t then some Ordering.eq else none) = none ↔ t = false := by
  cases t <;> simp

/-- Of two containers of one kind only the contents are in question. -/
theorem eq_false_iff_differentContents
    (h : (∃ as bs, a = .array as ∧ b = .array bs) ∨ ∃ fs gs, a = .map fs ∧ b = .map gs) :
    a.same b = false ↔ DifferentContents a b ∨ NotANumber a b := by
  have hnumber : ¬NotANumber a b := by
    rintro ⟨hnum, _⟩
    obtain ⟨_, _, rfl, _⟩ | ⟨_, _, rfl, _⟩ := h <;> cases hnum
  rw [or_iff_left hnumber]
  exact ⟨fun hsame => ⟨h, hsame⟩, fun hcontents => hcontents.2⟩

/-- **Two values do not compare if they are containers with different contents, or numbers one of
which is `NaN`**, and only then. -/
theorem eq_none_iff (h : Compares a b o) :
    o = none ↔ DifferentContents a b ∨ NotANumber a b := by
  cases h with
  | numbers ha hb hdouble =>
    obtain ⟨hanum, hanan⟩ := isNumeric_of_toFloat? ha
    obtain ⟨hbnum, hbnan⟩ := isNumeric_of_toFloat? hb
    have hcontents : ¬DifferentContents a b := by
      rintro ⟨⟨_, _, rfl, _⟩ | ⟨_, _, rfl, _⟩, _⟩ <;> cases ha
    rw [compareFloat?_eq_none_iff, hanan, hbnan, or_iff_right hcontents]
    exact ⟨fun hnan => ⟨hanum, hbnum, hnan⟩, fun hnan => hnan.2.2⟩
  | arrays as bs =>
    rw [ite_eq_none_iff_same]
    exact eq_false_iff_differentContents (.inl ⟨as, bs, rfl, rfl⟩)
  | maps fs gs =>
    rw [ite_eq_none_iff_same]
    exact eq_false_iff_differentContents (.inr ⟨fs, gs, rfl, rfl⟩)
  | kinds hrank _ _ =>
    refine iff_of_false nofun ?_
    rintro (⟨⟨_, _, rfl, rfl⟩ | ⟨_, _, rfl, rfl⟩, _⟩ | ⟨hanum, hbnum, _⟩)
    · exact hrank rfl
    · exact hrank rfl
    · exact hrank ((rank_of_isNumeric hanum).trans (rank_of_isNumeric hbnum).symm)
  | _ =>
    refine iff_of_false nofun ?_
    simp_all [DifferentContents, NotANumber, isNumeric, isNaN]

end Compares

/-! ## The operators -/

/-- The operator yields true. -/
def IsTrue (op : BinaryOp) (a b : Value) : Prop :=
  binary op a b = .ok (.bool true)

/-- What a comparison of two values says goes with what any other comparison of them says. -/
structure ComparedCoherently (a b : Value) : Prop where
  /-- From the other side the order is the reverse one. -/
  reversed : compare? b a = (compare? a b).map Ordering.swap
  /-- Values of different kinds are equal only as numbers or as texts. -/
  equal : compare? a b = some .eq → a.kindName ≠ b.kindName →
    a.isNumeric = true ∧ b.isNumeric = true ∨ IsTextOf a b ∨ IsTextOf b a
  /-- The values do not compare only if they are containers with different contents, or if one of
  two numbers is `NaN`. -/
  incomparable : compare? a b = none ↔ DifferentContents a b ∨ NotANumber a b
  /-- A comparison always has a truth value. -/
  decided : ∀ op, op.isComparison = true → ∃ t, binary op a b = .ok (.bool t)
  lt_iff_gt : IsTrue .lt a b ↔ IsTrue .gt b a
  le_iff_ge : IsTrue .le a b ↔ IsTrue .ge b a
  ne_iff_not_eq : IsTrue .ne a b ↔ ¬IsTrue .eq a b
  le_iff_lt_or_eq : IsTrue .le a b ↔ IsTrue .lt a b ∨ IsTrue .eq a b

/-- A comparison never fails, and its answer is read off the order of the two values. -/
theorem binary_comparison (op : BinaryOp) (hop : op.isComparison = true) (a b : Value) :
    binary op a b = .ok (.bool (holds op (compare? a b))) := by
  cases op with
  | eq | ne | lt | le | gt | ge => rfl
  | _ => cases hop

/-- A comparison is true if the order of the two values says so. -/
theorem isTrue_iff (op : BinaryOp) (hop : op.isComparison = true) (a b : Value) :
    IsTrue op a b ↔ holds op (compare? a b) = true := by
  unfold IsTrue
  rw [binary_comparison op hop]
  simp

/-- Greater is less from the other side. -/
theorem holds_gt_swap (o : Option Ordering) :
    holds .gt (o.map Ordering.swap) = holds .lt o := by
  rcases o with _ | _ | _ | _ <;> rfl

theorem holds_ge_swap (o : Option Ordering) :
    holds .ge (o.map Ordering.swap) = holds .le o := by
  rcases o with _ | _ | _ | _ <;> rfl

/-- Unequal is the opposite of equal. -/
theorem holds_ne (o : Option Ordering) : holds .ne o = !holds .eq o := by
  rcases o with _ | _ | _ | _ <;> rfl

/-- Less or equal is less, or else equal. -/
theorem holds_le (o : Option Ordering) : holds .le o = (holds .lt o || holds .eq o) := by
  rcases o with _ | _ | _ | _ <;> rfl

end Value

open Value

/-- **Comparing is antisymmetric, and its operators agree with each other**, for any two values. -/
theorem comparison_coherent (a b : Value) : ComparedCoherently a b := by
  have hrules := compares a b
  have hswap := compares_iff.mp hrules.swap
  refine ⟨hswap, hrules.kinds_of_eq, hrules.eq_none_iff,
    fun op hop => ⟨_, binary_comparison op hop a b⟩, ?_, ?_, ?_, ?_⟩
  · rw [isTrue_iff .lt rfl, isTrue_iff .gt rfl, hswap, holds_gt_swap]
  · rw [isTrue_iff .le rfl, isTrue_iff .ge rfl, hswap, holds_ge_swap]
  · rw [isTrue_iff .ne rfl, isTrue_iff .eq rfl, holds_ne, Bool.not_eq_true', Bool.not_eq_true]
  · rw [isTrue_iff .le rfl, isTrue_iff .lt rfl, isTrue_iff .eq rfl, holds_le, Bool.or_eq_true]

end BasicScript
