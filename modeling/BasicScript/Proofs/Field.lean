import BasicScript.Proofs.Keyed.Value

/-!
# What a name finds in a map

A name finds a field by its normal form, or else by the first key that differs from it in the case of
Latin letters only.  A write takes the key that the name finds, and the normal form of the name where
it finds none.  The key is therefore not the same function of the name in every map, and whether two
names get in each other's way has to be read off the names.

* `Value.Matches`: a key that a name may find, in whatever map.
* `Value.lookup?_setKey_self`: a field that has been written is found by the same name.
* `Value.lookup?_insert_of_not_matches`: an entry whose key a name cannot find does not matter to it.
* `Value.Apart`: two names that no key matches both, and `Ident.apart`: different identifiers are so.
* `Value.splitDots_of_mem` and its neighbours: the parts of a name with dots.
-/

namespace BasicScript

/-! ## Keys of a table -/

namespace Table

variable {α : Type} {t : Table α} {k : String} {p : String → Bool}

/-- An entry that has been inserted is there. -/
theorem contains_insert_self (v : α) : contains (insert t k v) k = true := by
  simp [contains]

/-- An insertion has no effect on other keys. -/
theorem contains_insert_of_ne {k' : String} (v : α) (h : k ≠ k') :
    contains (insert t k v) k' = contains t k' := by
  unfold contains
  rw [get?_insert_of_ne t v h]

/-- A key of a table has an entry. -/
theorem contains_of_mem_keys (h : k ∈ keys t) : contains t k = true := by
  induction t with
  | nil => cases h
  | cons e rest ih =>
    obtain ⟨name, value⟩ := e
    unfold contains get?
    by_cases heq : name = k
    · rw [if_pos heq]
      rfl
    · rw [if_neg heq]
      rcases List.mem_cons.mp h with hhead | hrest
      · exact (heq hhead.symm).elim
      · exact ih hrest

/-- A search that passes over a key is not disturbed by its insertion. -/
theorem find?_keys_insert_of_not (h : p k = false) (v : α) :
    (keys (insert t k v)).find? p = (keys t).find? p := by
  induction t with
  | nil => simp [insert, keys, h]
  | cons e rest ih =>
    obtain ⟨name, value⟩ := e
    unfold insert
    by_cases heq : name = k
    · rw [if_pos heq, heq]
      rfl
    · rw [if_neg heq]
      by_cases hlt : k < name
      · rw [if_pos hlt]
        exact List.find?_cons_of_neg (by rw [h]; exact Bool.false_ne_true)
      · rw [if_neg hlt]
        show (name :: keys (insert rest k v)).find? p = (name :: keys rest).find? p
        rw [List.find?_cons, List.find?_cons, ih]

/-- A search that ends at a key still does so when the key gets a new value. -/
theorem find?_keys_insert_of_find? (h : (keys t).find? p = some k) (v : α) :
    (keys (insert t k v)).find? p = some k := by
  have hk : p k = true := List.find?_some h
  induction t with
  | nil => cases h
  | cons e rest ih =>
    obtain ⟨name, value⟩ := e
    unfold insert
    by_cases heq : name = k
    · rw [if_pos heq]
      exact List.find?_cons_of_pos hk
    · rw [if_neg heq]
      by_cases hlt : k < name
      · rw [if_pos hlt]
        exact List.find?_cons_of_pos hk
      · rw [if_neg hlt]
        change (name :: keys rest).find? p = some k at h
        show (name :: keys (insert rest k v)).find? p = some k
        rw [List.find?_cons] at h ⊢
        cases hname : p name with
        | true =>
          rw [hname] at h
          exact (heq (Option.some.inj h)).elim
        | false =>
          rw [hname] at h
          exact ih h

end Table

/-! ## Keys that a name may find -/

namespace Text

/-- Two texts differ in the case of Latin letters only if they are the same in small letters. -/
theorem eqAsciiCase_iff {s t : String} :
    eqAsciiCase s t = true ↔ s.toList.map Char.toLower = t.toList.map Char.toLower :=
  eqCharsAsciiCase_iff

/-- It does not matter which of two texts comes first. -/
theorem eqAsciiCase_symm {s t : String} (h : eqAsciiCase s t = true) : eqAsciiCase t s = true :=
  eqAsciiCase_iff.mpr (eqAsciiCase_iff.mp h).symm

/-- Texts that differ from a third one in case only differ from each other in case only. -/
theorem eqAsciiCase_trans {r s t : String} (h : eqAsciiCase r s = true)
    (h' : eqAsciiCase s t = true) : eqAsciiCase r t = true :=
  eqAsciiCase_iff.mpr ((eqAsciiCase_iff.mp h).trans (eqAsciiCase_iff.mp h'))

/-- An underscore stands at the beginning of a text or of its upper case, or of neither. -/
theorem head?_upper_iff {s : String} :
    (upper s).toList.head? = some '_' ↔ s.toList.head? = some '_' := by
  constructor
  · exact head?_of_mark_upper (by decide)
  · intro h
    unfold upper
    rw [String.toList_ofList]
    cases hs : s.toList with
    | nil =>
      rw [hs] at h
      cases h
    | cons c cs =>
      rw [hs] at h
      cases h
      rfl

end Text

namespace Value

variable {fields : Table Value} {name key : String} {v : Value}

/-- A key that a name may find: the normal form of the name, or a key that differs from the name in
the case of Latin letters only. -/
def Matches (name key : String) : Prop :=
  key = normalizeKey name ∨ Text.eqAsciiCase key name = true

/-- Two names that no key matches both. -/
def Apart (s t : String) : Prop :=
  normalizeKey s ≠ normalizeKey t ∧ Text.eqAsciiCase s t = false

/-- Normal forms make no difference in the case of Latin letters, unless a key begins with an
underscore and is its own normal form. -/
theorem normalizeKey_or_of_eqAsciiCase {s t : String}
    (h : Text.eqAsciiCase (normalizeKey s) t = true) :
    normalizeKey s = normalizeKey t ∨ Text.eqAsciiCase s t = true := by
  unfold normalizeKey at h ⊢
  by_cases hs : s.toList.head? = some '_'
  · rw [if_pos hs] at h
    exact .inr h
  · rw [if_neg hs] at h ⊢
    have hupper : Text.upper s = Text.upper t := by
      rw [← Text.upper_upper s]
      exact Text.upper_congr h
    have ht : t.toList.head? ≠ some '_' := by
      rw [Ne, ← Text.head?_upper_iff, ← hupper, Text.head?_upper_iff]
      exact hs
    rw [if_neg ht]
    exact .inl hupper

/-- **Names that are apart find no key in common.** -/
theorem Matches.not_apart {s t : String} (hs : Matches s key) (ht : Matches t key) :
    ¬ Apart s t := by
  intro hapart
  obtain ⟨hnormal, halike⟩ := hapart
  rw [Bool.eq_false_iff] at halike
  rcases hs with hs | hs
  · rcases ht with ht | ht
    · exact hnormal (hs.symm.trans ht)
    · rw [hs] at ht
      exact (normalizeKey_or_of_eqAsciiCase ht).elim hnormal halike
  · rcases ht with ht | ht
    · rw [ht] at hs
      rcases normalizeKey_or_of_eqAsciiCase hs with h | h
      · exact hnormal h.symm
      · exact halike (Text.eqAsciiCase_symm h)
    · exact halike (Text.eqAsciiCase_trans (Text.eqAsciiCase_symm hs) ht)

/-- The key that a name finds is one that it may find. -/
theorem matches_of_findKey? (h : findKey? fields name = some key) : Matches name key := by
  unfold findKey? at h
  dsimp only at h
  split at h
  · cases h
    exact .inl rfl
  · have hscan := List.find?_some h
    exact .inr hscan

/-- The key under which a name is written is one that the name may find. -/
theorem matches_fieldKey (fields : Table Value) (name : String) :
    Matches name (fieldKey fields name) := by
  unfold fieldKey
  cases h : findKey? fields name with
  | none => exact .inl rfl
  | some key => exact matches_of_findKey? h

/-! ## Writing and finding -/

/-- A field that has been written is found by its name under the key that was taken. -/
theorem findKey?_setKey_self (fields : Table Value) (name : String) (v : Value) :
    findKey? (setKey fields name v) name = some (fieldKey fields name) := by
  unfold setKey fieldKey findKey?
  dsimp only
  by_cases hnormal : Table.contains fields (normalizeKey name) = true
  · rw [if_pos hnormal]
    exact if_pos (Table.contains_insert_self v)
  · rw [if_neg hnormal]
    cases hscan : (Table.keys fields).find? fun k =>
        Text.eqCharsAsciiCase k.toList name.toList with
    | none => exact if_pos (Table.contains_insert_self v)
    | some key =>
      have hne : key ≠ normalizeKey name := by
        intro heq
        apply hnormal
        rw [← heq]
        exact Table.contains_of_mem_keys (List.mem_of_find?_eq_some hscan)
      show (if Table.contains (Table.insert fields key v) (normalizeKey name) = true then _ else
        (Table.keys (Table.insert fields key v)).find? _) = some key
      rw [Table.contains_insert_of_ne v hne, if_neg hnormal]
      exact Table.find?_keys_insert_of_find? hscan v

/-- **A field that has been written is found.** -/
theorem lookup?_setKey_self (fields : Table Value) (name : String) (v : Value) :
    lookup? (setKey fields name v) name = some v := by
  unfold lookup?
  rw [findKey?_setKey_self]
  exact Table.get?_insert_self fields (fieldKey fields name) v

/-- An entry whose key a name cannot find does not matter to the name. -/
theorem lookup?_insert_of_not_matches (h : ¬ Matches name key) (v : Value) :
    lookup? (Table.insert fields key v) name = lookup? fields name := by
  have hkey : findKey? (Table.insert fields key v) name = findKey? fields name := by
    have hne : key ≠ normalizeKey name := fun heq => h (.inl heq)
    have hscan : Text.eqCharsAsciiCase key.toList name.toList = false :=
      Bool.eq_false_iff.mpr fun halike => h (.inr halike)
    unfold findKey?
    dsimp only
    rw [Table.contains_insert_of_ne v hne, Table.find?_keys_insert_of_not hscan v]
  unfold lookup?
  rw [hkey]
  cases hfound : findKey? fields name with
  | none => rfl
  | some found =>
    have hne : key ≠ found := by
      intro heq
      rw [heq] at h
      exact h (matches_of_findKey? hfound)
    exact Table.get?_insert_of_ne fields v hne

/-- A write of one name is not seen by a name that is apart from it. -/
theorem lookup?_setKey_of_apart {s t : String} (h : Apart s t) :
    lookup? (setKey fields s v) t = lookup? fields t :=
  lookup?_insert_of_not_matches (fun ht => (matches_fieldKey fields s).not_apart ht h) v

/-- The field that a write starts from is the one that a read finds, or nothing. -/
theorem fieldAt_eq (fields : Table Value) (name : String) :
    fieldAt fields name = (lookup? fields name).getD nil := by
  unfold fieldAt fieldKey lookup?
  cases h : findKey? fields name with
  | some key => rfl
  | none =>
    have hnone : Table.get? fields (normalizeKey name) = none := by
      unfold findKey? at h
      dsimp only at h
      split at h
      · cases h
      · next hnormal => simpa [Table.contains] using hnormal
    show (Table.get? fields (normalizeKey name)).getD nil = nil
    rw [hnone]
    rfl

/-! ## Names with dots -/

/-- A name has at least one part. -/
theorem splitDots_ne_nil (cs : List Char) : ∃ part parts, splitDots cs = part :: parts := by
  induction cs with
  | nil => exact ⟨[], [], rfl⟩
  | cons c cs ih =>
    obtain ⟨part, parts, hcs⟩ := ih
    unfold splitDots
    rw [hcs]
    by_cases hc : (c == '.') = true
    · exact ⟨[], part :: parts, if_pos hc⟩
    · exact ⟨c :: part, parts, if_neg hc⟩

/-- A name with a dot in it has several parts. -/
theorem splitDots_of_mem {cs : List Char} (h : '.' ∈ cs) :
    ∃ a b rest, splitDots cs = a :: b :: rest := by
  induction cs with
  | nil => cases h
  | cons c cs ih =>
    obtain ⟨part, parts, hcs⟩ := splitDots_ne_nil cs
    unfold splitDots
    rw [hcs]
    by_cases hc : (c == '.') = true
    · exact ⟨[], part, parts, if_pos hc⟩
    · have hmem : '.' ∈ cs := by
        rcases List.mem_cons.mp h with hhead | hmem
        · exact (hc (beq_iff_eq.mpr hhead.symm)).elim
        · exact hmem
      obtain ⟨a, b, rest, hsplit⟩ := ih hmem
      rw [hcs] at hsplit
      obtain ⟨rfl, rfl⟩ := List.cons.inj hsplit
      exact ⟨c :: part, b, rest, if_neg hc⟩

/-- A name without a dot is its only part. -/
theorem splitDots_of_not_mem {cs : List Char} (h : '.' ∉ cs) : splitDots cs = [cs] := by
  induction cs with
  | nil => rfl
  | cons c cs ih =>
    rw [List.mem_cons, not_or] at h
    unfold splitDots
    rw [ih h.2]
    exact if_neg fun hc => h.1 (eq_of_beq hc).symm

/-- The parts of a name have no dots. -/
theorem not_mem_of_mem_splitDots {cs part : List Char} (h : part ∈ splitDots cs) : '.' ∉ part := by
  induction cs generalizing part with
  | nil =>
    cases List.mem_singleton.mp h
    exact List.not_mem_nil
  | cons c cs ih =>
    obtain ⟨first, parts, hcs⟩ := splitDots_ne_nil cs
    rw [hcs] at ih
    unfold splitDots at h
    rw [hcs] at h
    by_cases hc : (c == '.') = true
    · simp only [hc, if_true] at h
      rcases List.mem_cons.mp h with hempty | hmem
      · rw [hempty]
        exact List.not_mem_nil
      · exact ih hmem
    · simp only [hc] at h
      rcases List.mem_cons.mp h with hfirst | hmem
      · rw [hfirst, List.mem_cons, not_or]
        exact ⟨fun heq => hc (beq_iff_eq.mpr heq.symm), ih List.mem_cons_self⟩
      · exact ih (List.mem_cons_of_mem _ hmem)

end Value

/-- The name of an identifier is in normal form. -/
theorem Ident.normalizeKey_name (x : Ident) : Value.normalizeKey x.name = x.name := by
  obtain ⟨s, h⟩ := x.canonical
  rw [h, Value.normalizeKey_upper]

/-- Different identifiers are apart. -/
theorem Ident.apart {x y : Ident} (h : x ≠ y) : Value.Apart x.name y.name := by
  constructor
  · rw [x.normalizeKey_name, y.normalizeKey_name]
    exact fun hname => h (Ident.ext hname)
  · rw [Bool.eq_false_iff]
    exact fun halike => h (Ident.ext (Ident.name_eq_of_eqAsciiCase halike))

end BasicScript
