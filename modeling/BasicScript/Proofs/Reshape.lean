import BasicScript.Value.Update
import Mathlib.Data.List.Forall2

/-!
# Arrays of new sizes

REDIM PRESERVE builds an array of the sizes asked for around what the variable held.  The old value
may be anything: an array with fewer dimensions or more, one whose inner arrays have all kinds of
lengths, or no array at all.  What the new array holds is told place by place, along a list with one
place a dimension.

* `Value.HasShape` says that an array has given sizes, `Value.element?` reads along a list of
  places.
* `Value.eq_of_hasShape`: an array is known by its sizes and its elements.
* `Value.element?_refit`: an element is the old one at the same places, or the empty value.
* `reshape_keeps_overlap`: the same of `Value.reshape`, and the way to smaller sizes may lead
  through any larger ones.
-/

namespace BasicScript

namespace Value

/-- An array of as many items as the first size says, each of the shape that the other sizes say.
Any value is of no size. -/
def HasShape : List Nat → Value → Prop
  | [], _ => True
  | n :: rest, array items => items.length = n ∧ ∀ v ∈ items, HasShape rest v
  | _ :: _, _ => False

/-- The element at a list of places, if there are arrays along it that reach so far. -/
def element? : Value → List Nat → Option Value
  | v, [] => some v
  | array items, i :: rest => items[i]?.bind (element? · rest)
  | _, _ :: _ => none

/-- What an array of new sizes holds where a value stood before: that value if no size is left, and
otherwise an array of the sizes that are left. -/
def refit (old : Option Value) : List Nat → Value
  | [] => old.getD nil
  | n :: rest => reshape old (n :: rest)

variable {old : Option Value} {v w : Value} {sizes smaller path : List Nat}

/-! ## One dimension -/

/-- There are as many first items as were asked for. -/
theorem length_firstItems (n : Nat) (items : List Value) : (firstItems n items).length = n := by
  simp only [firstItems, List.length_append, List.length_map, List.length_take,
    List.length_replicate]
  omega

/-- A first item is the one at its place, if there is one. -/
theorem getElem?_firstItems {n i : Nat} (h : i < n) (items : List Value) :
    (firstItems n items)[i]? = some items[i]? := by
  unfold firstItems
  by_cases hi : i < items.length
  · rw [List.getElem?_append_left (by simp; omega), List.getElem?_map, List.getElem?_take_of_lt h,
      List.getElem?_eq_getElem hi]
    rfl
  · rw [List.getElem?_append_right (by simp; omega), List.getElem?_replicate_of_lt (by simp; omega),
      List.getElem?_eq_none (by omega)]

/-- An array of new sizes, one dimension after the other. -/
theorem refit_cons (old : Option Value) (n : Nat) (rest : List Nat) :
    refit old (n :: rest) =
      array ((firstItems n (itemsOf (old.getD nil))).map (refit · rest)) := by
  cases rest <;> rfl

/-- REDIM with some sizes refits what was there. -/
theorem reshape_eq_refit (h : sizes ≠ []) (old : Option Value) :
    reshape old sizes = refit old sizes := by
  cases sizes with
  | nil => exact absurd rfl h
  | cons n rest => rfl

/-- A place is looked up among the items of the old value, if it has any. -/
theorem bind_element?_cons (old : Option Value) (i : Nat) (path : List Nat) :
    old.bind (·.element? (i :: path)) =
      (itemsOf (old.getD nil))[i]?.bind (·.element? path) := by
  cases old with
  | none => rfl
  | some v => cases v <;> rfl

/-! ## Sizes and elements -/

/-- What is refitted has the new sizes. -/
theorem hasShape_refit (old : Option Value) (sizes : List Nat) :
    HasShape sizes (refit old sizes) := by
  induction sizes generalizing old with
  | nil => trivial
  | cons n rest ih =>
    rw [refit_cons]
    refine ⟨by rw [List.length_map, length_firstItems], ?_⟩
    intro v hv
    obtain ⟨prev, -, rfl⟩ := List.mem_map.mp hv
    exact ih prev

/-- **The overlap is kept, and all else is empty.** -/
theorem element?_refit (h : List.Forall₂ (· < ·) path sizes) (old : Option Value) :
    (refit old sizes).element? path = some ((old.bind (·.element? path)).getD nil) := by
  induction h generalizing old with
  | nil => cases old <;> rfl
  | @cons i n path rest hi _ ih =>
    rw [refit_cons, bind_element?_cons]
    show ((firstItems n _).map (refit · rest))[i]?.bind (·.element? path) = _
    rw [List.getElem?_map, getElem?_firstItems hi]
    exact ih _

/-- **An array is known by its sizes and its elements.** -/
theorem eq_of_hasShape (hv : HasShape sizes v) (hw : HasShape sizes w)
    (h : ∀ path, List.Forall₂ (· < ·) path sizes → v.element? path = w.element? path) : v = w := by
  induction sizes generalizing v w with
  | nil => exact Option.some.inj (h [] .nil)
  | cons n rest ih =>
    cases v with
    | array items =>
      cases w with
      | array items' =>
        obtain ⟨hlength, hitems⟩ := hv
        obtain ⟨hlength', hitems'⟩ := hw
        refine congrArg array (List.ext_getElem (hlength.trans hlength'.symm) ?_)
        intro i hi hi'
        refine ih (hitems _ (List.getElem_mem hi)) (hitems' _ (List.getElem_mem hi')) ?_
        intro path hpath
        have hread := h (i :: path) (.cons (hlength ▸ hi) hpath)
        simpa only [element?, List.getElem?_eq_getElem hi, List.getElem?_eq_getElem hi',
          Option.bind_some] using hread
      | _ => exact hw.elim
    | _ => exact hv.elim

/-- A path within smaller sizes is one within larger sizes. -/
theorem forall₂_lt_of_le (hpath : List.Forall₂ (· < ·) path smaller)
    (h : List.Forall₂ (· ≤ ·) smaller sizes) : List.Forall₂ (· < ·) path sizes := by
  induction hpath generalizing sizes with
  | nil =>
    cases h
    exact .nil
  | cons hi _ ih =>
    cases h with
    | cons hle hrest => exact .cons (Nat.lt_of_lt_of_le hi hle) (ih hrest)

/-- Larger sizes on the way to smaller ones lose nothing that the smaller ones keep. -/
theorem refit_refit (h : List.Forall₂ (· ≤ ·) smaller sizes) (old : Option Value) :
    refit (some (refit old sizes)) smaller = refit old smaller := by
  refine eq_of_hasShape (hasShape_refit _ _) (hasShape_refit _ _) ?_
  intro path hpath
  rw [element?_refit hpath, element?_refit hpath, Option.bind_some,
    element?_refit (forall₂_lt_of_le hpath h), Option.getD_some]

/-- Indices that denote places read the element at these places. -/
theorem foldl_itemAt_of_element? {is : List Value} (hplaces : is.map position? = path.map some)
    (h : v.element? path = some w) : is.foldl itemAt v = w := by
  induction path generalizing v is with
  | nil =>
    rw [List.map_nil, List.map_eq_nil_iff] at hplaces
    rw [hplaces]
    exact Option.some.inj h
  | cons p path ih =>
    obtain ⟨i, rest, rfl, hi, hrest⟩ := List.map_eq_cons_iff.mp hplaces
    cases v with
    | array items =>
      obtain ⟨item, hitem, hread⟩ := Option.bind_eq_some_iff.mp h
      have hstep : (array items).itemAt i = item := by
        show ((position? i).bind (items[·]?)).getD nil = item
        rw [hi, Option.bind_some, hitem, Option.getD_some]
      rw [List.foldl_cons, hstep]
      exact ih hrest hread
    | _ => cases h

end Value

open Value

/-- **An array of new sizes keeps the overlap with what was there, and nothing else.**  Let there be
at least one size.  Whatever the old value was, the new one is an array of exactly these sizes.  At
every list of places within them it holds the element that the old value has at these places, and
where that has none, because it ends before or has no array there, the empty value; the same is what
indices that denote these places read.  So sizes that are nowhere larger give the same array from
the old value and from the new one. -/
theorem reshape_keeps_overlap (old : Option Value) (sizes : List Nat) (hsizes : sizes ≠ []) :
    HasShape sizes (reshape old sizes) ∧
    (∀ path, List.Forall₂ (· < ·) path sizes →
      (reshape old sizes).element? path = some ((old.bind (·.element? path)).getD nil) ∧
      ∀ is : List Value, is.map position? = path.map some →
        is.foldl itemAt (reshape old sizes) = (old.bind (·.element? path)).getD nil) ∧
    ∀ smaller, List.Forall₂ (· ≤ ·) smaller sizes →
      reshape (some (reshape old sizes)) smaller = reshape old smaller := by
  rw [reshape_eq_refit hsizes]
  refine ⟨hasShape_refit old sizes, ?_, ?_⟩
  · intro path hpath
    have hread := element?_refit hpath old
    exact ⟨hread, fun is hplaces => foldl_itemAt_of_element? hplaces hread⟩
  · intro smaller h
    have hsmaller : smaller ≠ [] := by
      intro hempty
      rw [hempty] at h
      exact hsizes (List.forall₂_nil_left_iff.mp h)
    rw [reshape_eq_refit hsmaller, reshape_eq_refit hsmaller]
    exact refit_refit h old

/-- An array with a row that is too long, a number for a row, and a row too few; the last element
kept is an array itself. -/
theorem reshape_keeps_overlap_ragged :
    let old := some (array [array [int 1, int 2, int 3], int 5, array [array [int 4]]])
    let sizes := [4, 2]
    sizes ≠ [] ∧ HasShape sizes (reshape old sizes) ∧
    (reshape old sizes).element? [0, 1] = some (int 2) ∧
    (reshape old sizes).element? [1, 0] = some nil ∧
    (reshape old sizes).element? [2, 0] = some (array [int 4]) ∧
    [int 3, int 1].foldl itemAt (reshape old sizes) = nil ∧
    reshape (some (reshape old sizes)) [3, 1] = reshape old [3, 1] := by
  intro old sizes
  have hsizes : sizes ≠ [] := List.cons_ne_nil _ _
  obtain ⟨hshape, helement, hagain⟩ := reshape_keeps_overlap old sizes hsizes
  refine ⟨hsizes, hshape, (helement [0, 1] ?_).1, (helement [1, 0] ?_).1, (helement [2, 0] ?_).1,
    (helement [3, 1] ?_).2 [int 3, int 1] rfl, hagain [3, 1] ?_⟩
  all_goals
    refine .cons ?_ (.cons ?_ .nil)
    all_goals decide

end BasicScript
