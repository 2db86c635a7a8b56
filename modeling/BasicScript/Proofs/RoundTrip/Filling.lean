import BasicScript.Proofs.RoundTrip.Tree

/-!
# How deep a document is filled

An array or object that holds nothing is opened, and then nothing is opened inside it.  If these are
not counted, the nesting of a document is its filling, which is one level less at most.

* `Json.filling` and `Json.nesting_le_filling`.
* `Fits`: a tree is plain, and its document is filled to some depth only.  `PartFits` is the same of
  a part that may be missing.
* `Yields`: what can be said of a result, if there is one.
* `Numeral.isFinite_of_toFloat?`: the doubles that are decoded are finite.
-/

namespace BasicScript

/-! ## How deep a document is filled -/

namespace Json

mutual

/-- The number of arrays and objects that are open at once around something in a document, or around
an array or object that holds nothing. -/
def filling : Json → Nat
  | .null | .bool _ | .num _ | .str _ => 0
  | .arr [] | .obj [] => 0
  | .arr (v :: vs) => max v.filling (fillingItems vs) + 1
  | .obj ((_, v) :: ms) => max v.filling (fillingMembers ms) + 1

/-- The filling of the deepest item. -/
def fillingItems : List Json → Nat
  | [] => 0
  | v :: vs => max v.filling (fillingItems vs)

/-- The filling of the deepest member. -/
def fillingMembers : List (JsonText × Json) → Nat
  | [] => 0
  | (_, v) :: ms => max v.filling (fillingMembers ms)

end

mutual

/-- Only an array or object that holds nothing may lie one level deeper. -/
theorem nesting_le_filling : ∀ j : Json, j.nesting ≤ j.filling + 1
  | .null | .bool _ | .num _ | .str _ => Nat.zero_le _
  | .arr [] | .obj [] => Nat.le_refl 1
  | .arr (v :: vs) => by
    have hfirst := nesting_le_filling v
    have hrest := nestingItems_le_filling vs
    simp only [nesting, nestingItems, filling]
    omega
  | .obj ((_, v) :: ms) => by
    have hfirst := nesting_le_filling v
    have hrest := nestingMembers_le_filling ms
    simp only [nesting, nestingMembers, filling]
    omega

/-- The same of the items of an array. -/
theorem nestingItems_le_filling : ∀ vs : List Json, nestingItems vs ≤ fillingItems vs + 1
  | [] => Nat.zero_le _
  | v :: vs => by
    have hfirst := nesting_le_filling v
    have hrest := nestingItems_le_filling vs
    simp only [nestingItems, fillingItems]
    omega

/-- The same of the members of an object. -/
theorem nestingMembers_le_filling :
    ∀ ms : List (JsonText × Json), nestingMembers ms ≤ fillingMembers ms + 1
  | [] => Nat.zero_le _
  | (_, v) :: ms => by
    have hfirst := nesting_le_filling v
    have hrest := nestingMembers_le_filling ms
    simp only [nestingMembers, fillingMembers]
    omega

end

/-- An array is filled one level deeper than its items. -/
theorem filling_arr_le {items : List Json} {depth : Nat} (h : ∀ v ∈ items, v.filling ≤ depth) :
    (arr items).filling ≤ depth + 1 := by
  have hitems : ∀ vs : List Json, (∀ v ∈ vs, v.filling ≤ depth) → fillingItems vs ≤ depth := by
    intro vs hvs
    induction vs with
    | nil => exact Nat.zero_le _
    | cons v vs ih =>
      obtain ⟨hv, hvs⟩ := List.forall_mem_cons.mp hvs
      exact Nat.max_le.mpr ⟨hv, ih hvs⟩
  cases items with
  | nil => exact Nat.zero_le _
  | cons v vs => exact Nat.succ_le_succ (hitems (v :: vs) h)

/-- An object is filled one level deeper than its members. -/
theorem filling_obj_le {members : List (JsonText × Json)} {depth : Nat}
    (h : ∀ m ∈ members, m.2.filling ≤ depth) : (obj members).filling ≤ depth + 1 := by
  have hmembers : ∀ ms : List (JsonText × Json), (∀ m ∈ ms, m.2.filling ≤ depth) →
      fillingMembers ms ≤ depth := by
    intro ms hms
    induction ms with
    | nil => exact Nat.zero_le _
    | cons m ms ih =>
      obtain ⟨hm, hms⟩ := List.forall_mem_cons.mp hms
      exact Nat.max_le.mpr ⟨hm, ih hms⟩
  cases members with
  | nil => exact Nat.zero_le _
  | cons m ms => exact Nat.succ_le_succ (hmembers (m :: ms) h)

end Json

/-! ## Trees whose documents fit -/

/-- A tree is plain, and its document is filled to some depth only. -/
structure Fits (depth : Nat) (plain : Bool) (j : Json) : Prop where
  plain : plain = true
  filling : j.filling ≤ depth

/-- Two parts are plain together if each of them is. -/
theorem plain_and {a b : Bool} (ha : a = true) (hb : b = true) : (a && b) = true :=
  Bool.and_eq_true_iff.mpr ⟨ha, hb⟩

namespace Fits

variable {depth : Nat} {a b : Bool} {j : Json} {kind : String} {ps : List (String × Option Json)}

/-- Parts that fit take one level more. -/
theorem parts (h : a = true) (hps : Parts (·.filling ≤ depth) ps) :
    Fits (depth + 1) a (Encoder.parts ps) := by
  refine ⟨h, Json.filling_obj_le fun m hm => ?_⟩
  obtain ⟨p, hp, rfl⟩ := List.mem_map.mp hm
  exact hps.of_mem hp

/-- A node takes one level more than what it holds. -/
theorem node (h : Fits depth a j) : Fits (depth + 1) a (Encoder.node kind j) := by
  refine ⟨h.plain, Json.filling_obj_le fun m hm => ?_⟩
  obtain rfl := List.mem_singleton.mp hm
  exact h.filling

/-- A node with parts takes two levels more than they do. -/
theorem nodeParts (h : a = true) (hps : Parts (·.filling ≤ depth) ps) :
    Fits (depth + 2) a (Encoder.node kind (Encoder.parts ps)) :=
  (parts h hps).node

/-- A list of trees that fit, given how their documents and their plainness are put together. -/
theorem list {α : Type} {plain : α → Bool} {plains : List α → Bool} {encode : α → Json}
    {encodes : List α → List Json} (hnil : plains [] = true ∧ encodes [] = [])
    (hcons : ∀ x xs, plains (x :: xs) = (plain x && plains xs) ∧
      encodes (x :: xs) = encode x :: encodes xs)
    {xs : List α} (h : ∀ x ∈ xs, Fits depth (plain x) (encode x)) :
    Fits (depth + 1) (plains xs) (.arr (encodes xs)) := by
  have hitems : plains xs = true ∧ ∀ v ∈ encodes xs, v.filling ≤ depth := by
    induction xs with
    | nil => exact ⟨hnil.1, by rw [hnil.2]; exact nofun⟩
    | cons x xs ih =>
      obtain ⟨hx, hxs⟩ := List.forall_mem_cons.mp h
      obtain ⟨hplain, hfilling⟩ := ih hxs
      rw [(hcons x xs).1, (hcons x xs).2]
      exact ⟨Bool.and_eq_true_iff.mpr ⟨hx.plain, hplain⟩,
        List.forall_mem_cons.mpr ⟨hx.filling, hfilling⟩⟩
  exact ⟨hitems.1, Json.filling_arr_le hitems.2⟩

end Fits

/-! ## Numbers -/

/-- The nearest double of a decimal is infinity at most. -/
theorem Double.Decimal.nearestBits_le (d : Decimal) : d.nearestBits ≤ infinityBits := by
  simp only [nearestBits]
  split_ifs
  · exact Nat.zero_le _
  · exact Nat.le_refl _
  · exact Nat.zero_le _
  · exact Double.nearestBits_le _ _

/-- A number that is too large for a finite double is not decoded. -/
theorem Numeral.isFinite_of_toFloat? {n : Numeral} {x : Float} (h : n.toFloat? = some x) :
    Double.isFinite x = true := by
  simp only [toFloat?] at h
  split at h
  · cases h
  · next hbits =>
    cases h
    exact Double.isFinite_ofSignBits (Nat.lt_of_le_of_ne (Double.Decimal.nearestBits_le _) hbits)

/-! ## Results -/

/-- A result has some property, if there is one. -/
def Yields {α : Type} (P : α → Prop) (x : Option α) : Prop :=
  ∀ a, x = some a → P a

namespace Yields

variable {α β : Type} {P : α → Prop} {Q : β → Prop} {x : Option α} {a : α}

theorem none : Yields P none := nofun

/-- A result with the property. -/
theorem some (h : P a) : Yields P (some a) := by
  intro b hb
  cases hb
  exact h

/-- What is true of everything is true of the result. -/
theorem all (h : ∀ a, P a) : Yields P x := fun a _ => h a

theorem any : Yields (fun _ => True) x := all fun _ => trivial

/-- The second step may rely on what the first one yields. -/
theorem bind {f : α → Option β} (hx : Yields P x) (hf : ∀ a, P a → Yields Q (f a)) :
    Yields Q (x >>= f) := by
  intro b hb
  obtain ⟨a, ha, hb⟩ := Option.bind_eq_some_iff.mp hb
  exact hf a (hx a ha) b hb

/-- What is made of a result has the property. -/
theorem map {f : α → β} (h : Yields (fun a => Q (f a)) x) : Yields Q (x.map f) := by
  intro b hb
  obtain ⟨a, ha, rfl⟩ := Option.map_eq_some_iff.mp hb
  exact h a ha

/-- A property that follows from the one the result has. -/
theorem imp {P' : α → Prop} (h : Yields P x) (himp : ∀ a, P a → P' a) : Yields P' x :=
  fun a ha => himp a (h a ha)

/-- If each result has the property, so have all of them together. -/
theorem mapM {f : β → Option α} (h : ∀ x, Yields P (f x)) {xs : List β} :
    Yields (fun as => ∀ a ∈ as, P a) (xs.mapM f) := by
  induction xs with
  | nil => exact .some nofun
  | cons x xs ih =>
    rw [List.mapM_cons]
    refine (h x).bind fun a ha => ih.bind fun as has => ?_
    exact .some (List.forall_mem_cons.mpr ⟨ha, has⟩)

/-- An optional part is missing or decoded. -/
theorem optional {P : Option α → Prop} {decode : Json → Option α} (hnone : P .none)
    (h : ∀ j, Yields (fun a => P (.some a)) (decode j)) (part : Option Json) :
    Yields P (Decoder.optional? decode part) := by
  unfold Decoder.optional?
  split
  · exact .some hnone
  · exact .some hnone
  · exact .map (h _)

/-- A part with a default is missing or decoded. -/
theorem default {decode : Json → Option α} (hmissing : P a) (h : ∀ j, Yields P (decode j))
    (part : Option Json) : Yields P (Decoder.default? a decode part) := by
  unfold Decoder.default?
  split
  · exact .some hmissing
  · exact h _

end Yields

/-! ## Parts that fit -/

/-- A part is plain, and its document is filled to some depth only, unless the part is missing. -/
structure PartFits (depth : Nat) (plain : Bool) (part : Option Json) : Prop where
  plain : plain = true
  filling : Part (·.filling ≤ depth) part

/-- A part that is there fits as a document does. -/
theorem Fits.part {depth : Nat} {a : Bool} {j : Json} (h : Fits depth a j) :
    PartFits depth a (some j) :=
  ⟨h.plain, h.filling⟩

/-- An optional name is a text, unless it is missing. -/
theorem part_ident {P : Json → Prop} (h : ∀ s, P (.text s)) (i : Option Ident) :
    Part P (i.map Encoder.ident) := by
  cases i with
  | none => trivial
  | some i => exact h i.name

/-- A part that is missing is null, which holds nothing. -/
theorem filling_getD_null {part : Option Json} {depth : Nat} (h : Part (·.filling ≤ depth) part) :
    (part.getD .null).filling ≤ depth := by
  cases part with
  | none => exact Nat.zero_le depth
  | some j => exact h

/-- The document of a double opens nothing. -/
theorem filling_float (x : Float) : (Encoder.float x).filling = 0 := by
  unfold Encoder.float
  split <;> rfl

/-- Names open nothing inside their list. -/
theorem filling_idents_le (is : List Ident) (depth : Nat) :
    (Encoder.idents is).filling ≤ depth + 1 := by
  refine Json.filling_arr_le fun v hv => ?_
  obtain ⟨i, -, rfl⟩ := List.mem_map.mp hv
  exact Nat.zero_le depth

end BasicScript
