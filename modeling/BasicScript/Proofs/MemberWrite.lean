import BasicScript.Proofs.Path
import BasicScript.Machine.Member

/-!
# Assignments to members

`a.b(i).c = v` goes down from the variable, one level a field or an index.  A field makes a map of
what was none; an index leads on only where something stands.  The name of the member itself may have
dots: a write takes every dot for a step to an inner map, while a read looks for the whole name first.

* `Value.setBelow_eq_writeAlong`: if the indices lead on, the assignment is a write along its path.
* `member_write_lawful`: the path and the member then read back the value, and nothing changes beside
  the path.
* `Value.getFields?_setMember`: behind the dots of its name a member is stored, whatever stood there.
* `dotted_member_reads_whole_name_first`: a member reads back what has been written, unless its name
  has dots and the map holds already what the whole name finds.
* `dotted_write_not_read_back`: a map that does.
-/

namespace BasicScript

namespace Value

namespace Level

/-- The step leads to a field, to an entry of a map, or to an item that an array has. -/
def reaches (l : Level) : Bool :=
  match l.value, l.step with
  | map _, _ => true
  | _, .field _ => true
  | v, .index i => (position? i).any fun p => decide (p < (itemsOf v).length)

/-- A write leaves an array or a map what it is: it does not make a map of it for a field. -/
def keeps (l : Level) : Bool :=
  match l.value, l.step with
  | map _, _ => true
  | _, .field _ => false
  | _, .index _ => true

/-- Nothing has changed between two levels but what stands at the step: no other entry of a map, no
other item of an array, and nothing that a step reads which leads elsewhere. -/
structure Spares (l l' : Level) : Prop where
  entries : ∀ key ≠ fieldKey (fieldsOf l.value) l.step.text,
    Table.get? (fieldsOf l'.value) key = Table.get? (fieldsOf l.value) key
  items : ∀ q, l.step.place? ≠ some q → (itemsOf l'.value)[q]? = (itemsOf l.value)[q]?
  reads : ∀ s, l.value.Elsewhere l.step s → l'.value.child? s = l.value.child? s

end Level

variable {t v w : Value} {s : Step} {path : List Step} {name : String}

/-! ## Writes along a path -/

/-- An index reaches an item if it denotes a place of the array. -/
theorem reaches_array_iff {items : List Value} {i : Value} :
    Level.reaches ⟨array items, .index i⟩ = true ↔ ∃ p, position? i = some p ∧ p < items.length := by
  show (position? i).any (fun p => decide (p < items.length)) = true ↔ _
  rw [Option.any_eq_true]
  simp only [decide_eq_true_eq]

/-- Below what is neither an array nor a map no index leads on. -/
theorem not_reaches_of_not_container {i : Value} (hv : v.isContainer = false) :
    ¬ Level.reaches ⟨v.container, .index i⟩ = true := by
  intro h
  have hcontainer : v.container = array [] := by
    cases v with
    | map fields => cases hv
    | array items => cases hv
    | _ => rfl
  rw [hcontainer, reaches_array_iff] at h
  obtain ⟨p, -, hp⟩ := h
  exact Nat.not_lt_zero p hp

/-- A step that reaches something leads somewhere. -/
theorem Level.leads_of_reaches {l : Level} (h : l.reaches = true) : l.leads = true := by
  obtain ⟨v, s⟩ := l
  cases s with
  | field name => cases v <;> rfl
  | index i =>
    cases v with
    | map fields => rfl
    | _ =>
      obtain ⟨p, hp, -⟩ := (Option.any_eq_true _ _).mp h
      exact Option.isSome_iff_exists.mpr ⟨p, hp⟩

/-- A field is written into the map, or into a new one in place of what is no map. -/
theorem container_setChild_field (v : Value) (name : String) (w : Value) :
    v.container.setChild (.field name) w = map (setKey (fieldsOf v) name w) := by
  cases v <;> rfl

/-- A field is read from the map, or from none in what is no map. -/
theorem container_child_field (v : Value) (name : String) :
    v.container.child (.field name) = fieldAt (fieldsOf v) name := by
  rw [fieldAt_eq]
  cases v <;> rfl

/-- A name without a dot is one segment. -/
theorem segments_of_not_mem (h : '.' ∉ name.toList) : segments name = [name] := by
  unfold segments
  rw [splitDots_of_not_mem h, List.map_singleton, String.ofList_toList]

/-- A step that leads on is taken by the assignment as by any write. -/
theorem setBelow_cons (h : Level.reaches ⟨t.container, s⟩ = true) (rest : List Step)
    (name : String) (v : Value) :
    t.setBelow (s :: rest) name v =
      t.container.setChild s ((t.container.child s).setBelow rest name v) := by
  cases s with
  | field field =>
    rw [container_setChild_field, container_child_field]
    rfl
  | index i =>
    cases t with
    | map fields =>
      show map (setKey fields i.toText ((fieldAt fields i.toText).setBelow rest name v)) = _
      rw [fieldAt_eq]
      rfl
    | array items =>
      obtain ⟨p, hp, hlt⟩ := reaches_array_iff.mp h
      have hitem : (array items).child (.index i) = items[p] := by
        simp [child, child?, itemAt, hp, List.getElem?_eq_getElem hlt]
      show _ = (array items).setChild (.index i) (setBelow ((array items).child (.index i)) _ _ _)
      rw [setChild_array hp, padTo_of_le hlt, hitem]
      simp only [setBelow, hp, List.getElem?_eq_getElem hlt]
    | _ => exact absurd h (not_reaches_of_not_container rfl)

/-- **An assignment to a member writes along its path**, if the indices on the way lead on. -/
theorem setBelow_eq_writeAlong (hdot : '.' ∉ name.toList)
    (h : ∀ l ∈ levels t path, l.reaches = true) (v : Value) :
    t.setBelow path name v = writeAlong t (path ++ [.field name]) v := by
  induction path generalizing t with
  | nil =>
    show setFields t v (segments name) = t.container.setChild (.field name) v
    rw [segments_of_not_mem hdot, container_setChild_field]
    rfl
  | cons s rest ih =>
    obtain ⟨hfirst, hrest⟩ := List.forall_mem_cons.mp h
    rw [setBelow_cons hfirst, ih hrest]
    rfl

/-! ## Beside the path -/

/-- A step that reaches something and is kept is a field of a map or an item of an array. -/
theorem Level.map_or_array {l : Level} (hreaches : l.reaches = true) (hkeeps : l.keeps = true) :
    (∃ fields, l.value = map fields) ∨
      ∃ items i p, l = ⟨array items, .index i⟩ ∧ position? i = some p ∧ p < items.length := by
  obtain ⟨v, s⟩ := l
  cases s with
  | field name =>
    cases v with
    | map fields => exact .inl ⟨fields, rfl⟩
    | _ => cases hkeeps
  | index i =>
    cases v with
    | map fields => exact .inl ⟨fields, rfl⟩
    | array items =>
      obtain ⟨p, hp, hlt⟩ := reaches_array_iff.mp hreaches
      exact .inr ⟨items, i, p, rfl, hp, hlt⟩
    | _ =>
      obtain ⟨p, -, hlt⟩ := (Option.any_eq_true _ _).mp hreaches
      exact absurd (of_decide_eq_true hlt) (Nat.not_lt_zero p)

/-- **A level at which something has been put is spared beside it.** -/
theorem Level.Written.spares {l l' : Level} (h : l.Written l') (hreaches : l.reaches = true)
    (hkeeps : l.keeps = true) : l.Spares l' := by
  obtain ⟨-, w, hput⟩ := h
  rcases map_or_array hreaches hkeeps with ⟨fields, hmap⟩ | ⟨items, i, p, harray, hp, hlt⟩
  · constructor
    · intro key hkey
      rw [hput, hmap]
      rw [hmap] at hkey
      exact Table.get?_insert_of_ne fields w hkey.symm
    · intro q hq
      rw [hput, hmap]
      rfl
    · intro s hs
      rw [hput]
      exact child?_setChild_of_elsewhere hs (.inl ⟨fields, hmap⟩) w
  · subst harray
    constructor
    · intro key hkey
      rw [hput, setChild_array hp]
      rfl
    · intro q hq
      have hne : p ≠ q := by
        intro heq
        apply hq
        rw [← heq]
        exact hp
      rw [hput, setChild_array hp, padTo_of_le hlt]
      exact List.getElem?_set_ne hne
    · intro s hs
      rw [hput]
      exact child?_setChild_of_elsewhere hs (.inr ⟨items, i, rfl, rfl⟩) w

/-- A path that finds something has met maps, and arrays at indices, and a write goes the same way. -/
theorem keeps_and_descend_of_follow? (hreaches : ∀ l ∈ levels t path, l.reaches = true)
    (h : t.follow? path = some w) :
    (∀ l ∈ levels t path, l.keeps = true) ∧ t.descend path = w := by
  induction path generalizing t with
  | nil =>
    cases h
    exact ⟨fun _ hl => absurd hl List.not_mem_nil, rfl⟩
  | cons s rest ih =>
    obtain ⟨hfirst, hrest⟩ := List.forall_mem_cons.mp hreaches
    obtain ⟨u, hu, hw⟩ := Option.bind_eq_some_iff.mp h
    have hkeeps : t.container = t ∧ Level.keeps ⟨t.container, s⟩ = true := by
      cases t with
      | map fields => exact ⟨rfl, rfl⟩
      | array items =>
        cases s with
        | field name => cases hu
        | index i => exact ⟨rfl, rfl⟩
      | _ =>
        cases s with
        | field name => cases hu
        | index i => exact absurd hfirst (not_reaches_of_not_container rfl)
    have hchild : t.container.child s = u := by
      unfold child
      rw [hkeeps.1, hu]
      rfl
    rw [← hchild] at hw
    obtain ⟨hbelow, hend⟩ := ih hrest hw
    exact ⟨List.forall_mem_cons.mpr ⟨hkeeps.2, hbelow⟩, hend⟩

/-! ## Names with dots -/

/-- A text has a dot if its upper case has one. -/
theorem dot_mem_upper_iff {s : String} : '.' ∈ (Text.upper s).toList ↔ '.' ∈ s.toList := by
  constructor
  · exact Text.mem_of_mark_mem_upper (by decide)
  · intro h
    unfold Text.upper
    rw [String.toList_ofList]
    exact List.mem_flatMap.mpr ⟨'.', h, by decide⟩

/-- A key that a name may find is the same in upper case. -/
theorem Matches.upper_eq {key : String} (h : Matches name key) :
    Text.upper key = Text.upper name := by
  rcases h with hnormal | halike
  · rw [hnormal]
    unfold normalizeKey
    split
    · rfl
    · exact Text.upper_upper name
  · exact Text.upper_congr halike

/-- A key that a name finds has a dot exactly if the name has. -/
theorem Matches.dot_mem_iff {key : String} (h : Matches name key) :
    '.' ∈ key.toList ↔ '.' ∈ name.toList := by
  rw [← dot_mem_upper_iff, h.upper_eq, dot_mem_upper_iff]

/-- Behind a chain of names stands what has been written there. -/
theorem getFields?_setFields (t v : Value) (names : List String) :
    getFields? (setFields t v names) names = some v := by
  induction names generalizing t with
  | nil => rfl
  | cons name rest ih =>
    show (lookup? (setKey (fieldsOf t) name _) name).bind (getFields? · rest) = some v
    rw [lookup?_setKey_self]
    exact ih _

/-- **Behind the dots of its name a member is stored**, whatever stood there. -/
theorem getFields?_setMember (t : Value) (name : String) (v : Value) :
    getFields? (t.setMember name v) (segments name) = some v :=
  getFields?_setFields t v (segments name)

/-- A member is written below a key that has no dot. -/
theorem setMember_eq (t : Value) (name : String) (v : Value) :
    ∃ first w, '.' ∉ first.toList ∧ t.setMember name v = map (setKey (fieldsOf t) first w) := by
  obtain ⟨part, parts, hsplit⟩ := splitDots_ne_nil name.toList
  refine ⟨String.ofList part, setFields (fieldAt (fieldsOf t) (String.ofList part)) v
    (parts.map String.ofList), ?_, ?_⟩
  · have hmem : part ∈ splitDots name.toList := by
      rw [hsplit]
      exact List.mem_cons_self
    rw [String.toList_ofList]
    exact not_mem_of_mem_splitDots hmem
  · unfold setMember segments
    rw [hsplit]
    rfl

/-- What a dotted name finds as a whole is not touched by the write of its last part. -/
theorem lookup?_setMember_of_dot (hdot : '.' ∈ name.toList) (t v : Value) :
    lookup? (fieldsOf (t.setMember name v)) name = lookup? (fieldsOf t) name := by
  obtain ⟨first, w, hfirst, hput⟩ := setMember_eq t name v
  rw [hput]
  apply lookup?_insert_of_not_matches
  intro hmatches
  apply hfirst
  rw [← (matches_fieldKey (fieldsOf t) first).dot_mem_iff, hmatches.dot_mem_iff]
  exact hdot

/-- A member without a dot is found after it has been written. -/
theorem lookup?_setMember_of_not_dot (hdot : '.' ∉ name.toList) (t v : Value) :
    lookup? (fieldsOf (t.setMember name v)) name = some v := by
  unfold setMember
  rw [segments_of_not_mem hdot]
  exact lookup?_setKey_self (fieldsOf t) name v

end Value

open Value

/-! ## Reading members -/

/-- Without hooks, a field that the name of a member finds is what the member stands for. -/
theorem Machine.memberOf_of_lookup? {cx : Context} (hhooks : cx.host.hooks.read = []) (m : Machine)
    {fields : Table Value} {name : String} {v : Value} (h : lookup? fields name = some v) :
    m.memberOf cx (.map fields) name = v := by
  unfold memberOf member? Hooks.resolve? mapMember?
  rw [hhooks]
  dsimp only
  rw [h]
  rfl

/-- Where its whole name finds no field, a member with dots stands for what is behind the dots. -/
theorem Machine.memberOf_of_getFields? {cx : Context} (hhooks : cx.host.hooks.read = [])
    (m : Machine) {fields : Table Value} {name : String} {v : Value} (hdot : '.' ∈ name.toList)
    (hwhole : lookup? fields name = none)
    (h : getFields? (.map fields) (segments name) = some v) :
    m.memberOf cx (.map fields) name = v := by
  unfold memberOf member? Hooks.resolve? mapMember?
  rw [hhooks]
  dsimp only
  rw [hwhole, if_pos (List.contains_iff_mem.mpr hdot), h]
  rfl

/-! ## The two laws -/

/-- **An assignment to a member is a lawful write.**  Let every index of the path meet a map, or an
array that has an item there.  After the assignment of `v` to a member without dots, the path and the
member lead to `v`.  What the path leads to is a map then; if it was one before, all other
identifiers find in it what they found before, and on the whole way nothing was made a map.
Wherever nothing was made a map, nothing has changed beside the path. -/
theorem member_write_lawful (t v : Value) (path : List Step) (m : Ident)
    (hdot : '.' ∉ m.name.toList) (hreaches : ∀ l ∈ levels t path, l.reaches = true) :
    let r := t.setBelow path m.name v
    let whole := path ++ [.field m.name]
    r.follow? whole = some v ∧
    (∀ fields, t.follow? path = some (map fields) →
      (∃ fields', r.follow? path = some (map fields') ∧
        ∀ n : Ident, n ≠ m → lookup? fields' n.name = lookup? fields n.name) ∧
      ∀ l ∈ levels t whole, l.keeps = true) ∧
    List.Forall₂ (fun l l' => l.keeps = true → l.Spares l') (levels t whole) (levels r whole) := by
  intro r whole
  have hr : r = writeAlong t whole v := setBelow_eq_writeAlong hdot hreaches v
  have hlast : Level.reaches ⟨(t.descend path).container, .field m.name⟩ = true := by
    cases t.descend path <;> rfl
  have hall : ∀ l ∈ levels t whole, l.reaches = true :=
    forall_levels_snoc.mpr ⟨hreaches, hlast⟩
  have hleads : ∀ l ∈ levels t whole, l.leads = true :=
    fun l hl => Level.leads_of_reaches (hall l hl)
  refine ⟨?_, ?_, ?_⟩
  · rw [hr]
    exact follow?_writeAlong hleads v
  · intro fields hfields
    obtain ⟨hkeeps, hend⟩ := keeps_and_descend_of_follow? hreaches hfields
    refine ⟨⟨setKey fields m.name v, ?_, ?_⟩, ?_⟩
    · rw [hr, follow?_writeAlong_append fun l hl => Level.leads_of_reaches (hreaches l hl), hend]
      rfl
    · intro n hn
      exact lookup?_setKey_of_apart (Ident.apart hn.symm)
    · refine forall_levels_snoc.mpr ⟨hkeeps, ?_⟩
      rw [hend]
      rfl
  · have hwritten := (List.forall₂_and_left _ _).mpr ⟨hall, levels_writeAlong hleads v⟩
    rw [hr]
    exact hwritten.imp fun l l' h hkeeps => h.2.spares h.1 hkeeps

/-- A member of a map in an array in a map, behind a key that is not in its normal form. -/
theorem member_write_lawful_nested :
    let t := map [("units", array [int 7, map [("HP", int 1), ("MP", int 2)]])]
    let path := [.field "UNITS", .index (int 1)]
    let hp := Ident.ofString "hp"
    let mp := Ident.ofString "mp"
    let r := t.setBelow path hp.name (int 9)
    '.' ∉ hp.name.toList ∧ (∀ l ∈ levels t path, l.reaches = true) ∧
    r.follow? (path ++ [.field hp.name]) = some (int 9) ∧
    ∃ fields, r.follow? path = some (map fields) ∧ lookup? fields mp.name = some (int 2) := by
  intro t path hp mp r
  have hdot : '.' ∉ hp.name.toList := by decide +kernel
  have hreaches : ∀ l ∈ levels t path, l.reaches = true := by decide +kernel
  have hdifferent : mp ≠ hp := by decide +kernel
  have hname : mp.name = "MP" := by decide +kernel
  have hfound : t.follow? path = some (map [("HP", int 1), ("MP", int 2)]) := rfl
  obtain ⟨hread, hkept, -⟩ := member_write_lawful t (int 9) path hp hdot hreaches
  obtain ⟨⟨fields, hfields, hother⟩, -⟩ := hkept _ hfound
  refine ⟨hdot, hreaches, hread, fields, hfields, ?_⟩
  rw [hother mp hdifferent, hname]
  rfl

/-- **The whole name of a member comes first when it is read.**  Without hooks, a member with dots
that has been assigned to is stored behind its dots.  It is read back, unless the map holds a field
already that the whole name finds: then that field is read, as before the assignment.  A member
without dots is always read back. -/
theorem dotted_member_reads_whole_name_first (cx : Context) (hhooks : cx.host.hooks.read = [])
    (m : Machine) (t v : Value) (x : Ident) :
    let r := t.setMember x.name v
    getFields? r (segments x.name) = some v ∧
    m.memberOf cx r x.name =
      (if '.' ∈ x.name.toList then lookup? (fieldsOf t) x.name else none).getD v := by
  intro r
  have hstored : getFields? r (segments x.name) = some v := getFields?_setMember t x.name v
  obtain ⟨first, w, -, hr⟩ := setMember_eq t x.name v
  change r = _ at hr
  refine ⟨hstored, ?_⟩
  by_cases hdot : '.' ∈ x.name.toList
  · have hwhole := lookup?_setMember_of_dot hdot t v
    change lookup? (fieldsOf r) x.name = _ at hwhole
    rw [if_pos hdot, ← hwhole]
    rw [hr] at hstored ⊢
    change _ = (lookup? (setKey (fieldsOf t) first w) x.name).getD v
    cases hfound : lookup? (setKey (fieldsOf t) first w) x.name with
    | none => exact Machine.memberOf_of_getFields? hhooks m hdot hfound hstored
    | some u => exact Machine.memberOf_of_lookup? hhooks m hfound
  · have hread := lookup?_setMember_of_not_dot hdot t v
    change lookup? (fieldsOf r) x.name = _ at hread
    rw [if_neg hdot]
    rw [hr] at hread ⊢
    exact Machine.memberOf_of_lookup? hhooks m hread

/-- A member is read back behind its dot, though a number stood there. -/
theorem dotted_member_reads_whole_name_first_scalar :
    let x := Ident.ofString "pos.x"
    let r := (map [("POS", int 7), ("POS.Y", int 1)]).setMember x.name (int 2)
    ({} : Context).host.hooks.read = [] ∧ Machine.memberOf {} {} r x.name = int 2 := by
  intro x r
  have hhooks : ({} : Context).host.hooks.read = [] := rfl
  obtain ⟨-, hread⟩ := dotted_member_reads_whole_name_first {} hhooks {}
    (map [("POS", int 7), ("POS.Y", int 1)]) (int 2) x
  have hname : x.name = "POS.X" := by decide +kernel
  have hnone : lookup? [("POS", int 7), ("POS.Y", int 1)] x.name = none := by
    rw [hname]
    rfl
  refine ⟨hhooks, hread.trans ?_⟩
  show (if '.' ∈ x.name.toList then lookup? [("POS", int 7), ("POS.Y", int 1)] x.name
    else none).getD (int 2) = int 2
  rw [hnone, ite_self]
  rfl

/-- A map that has the whole name as a key: what is assigned goes behind the dot, and the old field
is read. -/
theorem dotted_write_not_read_back :
    let x := Ident.ofString "a.b"
    let r := (map [("A.B", int 1)]).setMember x.name (int 2)
    r = map [("A", map [("B", int 2)]), ("A.B", int 1)] ∧
      Machine.memberOf {} {} r x.name = int 1 ∧ Machine.memberOf {} {} r x.name ≠ int 2 := by
  intro x r
  have hname : x.name = "A.B" := by decide +kernel
  have hr : r = map [("A", map [("B", int 2)]), ("A.B", int 1)] := by
    show (map [("A.B", int 1)]).setMember x.name (int 2) = _
    rw [hname]
    rfl
  have hread : Machine.memberOf {} {} r x.name = int 1 := by
    rw [hr, hname]
    rfl
  refine ⟨hr, hread, ?_⟩
  rw [hread]
  intro h
  cases h

end BasicScript
