import BasicScript.Proofs.Path
import BasicScript.Proofs.TableOrder

/-!
# Assignments below indices

`a(i, j) = v` goes down from the variable, one level an index.  A map is addressed by the text of the
index, everything else by the place that it denotes: arrays grow up to a limit, and what is neither
an array nor a map makes room for an array.  An index that denotes no place ends the walk, and the
value is not stored.

* `Value.writeAt_cons`: one level of the walk.
* `indexed_write_lawful`: if all indices lead somewhere, the assignment fails exactly if some array
  would grow beyond the limit; otherwise the indices read back the value, and other indices read what
  they read before.
* `ignored_write_makes_way`: if some index leads nowhere, the levels before it are made ready for the
  write all the same.  Nothing changes exactly if they were so before.
* `ignored_write_loses_item`: an item that such an assignment destroys.
-/

namespace BasicScript

namespace Value

namespace Level

/-- The array has to grow for the step, and to more items than the limit. -/
def overgrows (l : Level) (max : Nat) : Bool :=
  match l.value with
  | map _ => false
  | v => l.step.place?.any fun p => decide ((itemsOf v).length ≤ p) && decide (max < p + 1)

/-- The failure of a write for which an array would grow beyond the limit. -/
def failure (l : Level) : Failure :=
  let p := l.step.place?.getD 0
  .allocationTooLarge "Indexed assignment" [Word.clamp p] (min (p + 1) maxCount)

/-- What a write goes on from below a level.  Below an array it makes room there at once. -/
def start (l : Level) : Value :=
  match l.value with
  | map _ => l.value.child l.step
  | _ => (l.value.child l.step).container

/-- What a write needs below a level is there: a field of a map, or an array or a map as an item of
an array. -/
def holds (l : Level) : Bool :=
  match l.value with
  | map fields => (lookup? fields l.step.text).isSome
  | v => l.step.place?.any fun p => (itemsOf v)[p]?.any isContainer

end Level

/-- The level at which an index meets a value. -/
abbrev levelAt (target i : Value) : Level :=
  ⟨target.container, .index i⟩

/-- The levels that a list of indices meets on its way down a value. -/
def levelsOf (target : Value) (is : List Value) : List Level :=
  levels target (is.map .index)

variable {max : Nat} {v w target r i : Value} {rest is : List Value}

/-! ## One level -/

/-- What is no map counts as an array, if need be as an empty one. -/
theorem levelAt_of_not_map (h : ∀ fields, target ≠ map fields) (i : Value) :
    levelAt target i = ⟨array (itemsOf target), .index i⟩ := by
  rcases map_or_container_eq target with ⟨fields, heq⟩ | ⟨-, hcontainer⟩
  · exact absurd heq (h fields)
  · unfold levelAt
    rw [hcontainer]

/-- The levels below the first one are those that the rest of the indices meets. -/
theorem levelsOf_cons (target i : Value) (rest : List Value) :
    levelsOf target (i :: rest) =
      levelAt target i :: levelsOf (levelAt target i).start rest := by
  show _ :: levels (target.container.child (.index i)) (rest.map .index) = _
  unfold levelsOf Level.start
  dsimp only
  split
  · rfl
  · rw [levels_container]

/-- A write further down may go on from the room that has been made. -/
theorem writeAlong_start (l : Level) (path : List Step) (v : Value) :
    writeAlong l.start path v = writeAlong (l.value.child l.step) path v := by
  unfold Level.start
  split
  · rfl
  · exact writeAlong_container _ path v

section Place

variable {p : Nat} (hp : position? i = some p) (items : List Value)
include hp

/-- Below an array a write goes on from the item, with room made for it. -/
theorem start_array :
    Level.start ⟨array items, .index i⟩ = (items[p]?.getD nil).container := by
  simp [Level.start, child, child?, itemAt, hp]

/-- A level of an array holds what a write needs if the item is an array or a map. -/
theorem holds_array : Level.holds ⟨array items, .index i⟩ = items[p]?.any isContainer := by
  show (position? i).any (fun p => items[p]?.any isContainer) = _
  rw [hp]
  rfl

/-- An array overgrows if the place is behind its end and beyond the limit. -/
theorem overgrows_array_iff :
    Level.overgrows ⟨array items, .index i⟩ max = true ↔ items.length ≤ p ∧ max < p + 1 := by
  show (position? i).any (fun p => decide (items.length ≤ p) && decide (max < p + 1)) = true ↔ _
  rw [hp, Option.any_some, Bool.and_eq_true, decide_eq_true_eq, decide_eq_true_eq]

/-- The failure of an array that overgrows names the place. -/
theorem failure_array : Level.failure ⟨array items, .index i⟩ =
    .allocationTooLarge "Indexed assignment" [Word.clamp p] (min (p + 1) maxCount) := by
  simp [Level.failure, Step.place?, hp]

/-- A write that meets an array, as the program does it. -/
theorem writeAt_cons_array (h : ∀ fields, target ≠ map fields) :
    writeAt max v target (i :: rest) =
      if (itemsOf target).length ≤ p ∧ max < min (p + 1) maxCount then
        .error (.allocationTooLarge "Indexed assignment" [Word.clamp p] (min (p + 1) maxCount))
      else
        (writeAt max v ((itemsOf target)[p]?.getD nil).container rest).map
          fun w => array ((padTo (p + 1) (itemsOf target)).set p w) := by
  -- With no index left the value is stored whatever stood there.
  have hstart : ∀ w : Value, writeAt max v (if rest.isEmpty = true then w else w.container) rest =
      writeAt max v w.container rest := by
    intro w
    cases rest <;> rfl
  rw [writeAt.eq_3 max v target i rest h, hp]
  dsimp only
  rw [getD_padTo, hstart]
  split
  · rfl
  · cases writeAt max v ((itemsOf target)[p]?.getD nil).container rest <;> rfl

end Place

/-- A write that meets a map goes on in the field that the text of the index finds. -/
theorem writeAt_cons_map (fields : Table Value) :
    writeAt max v (map fields) (i :: rest) =
      (writeAt max v (fieldAt fields i.toText) rest).map
        fun w => map (setKey fields i.toText w) := by
  rw [writeAt]
  show writeAt max v (fieldAt fields i.toText) rest >>= _ = _
  cases writeAt max v (fieldAt fields i.toText) rest <;> rfl

/-- **One level of an assignment.**  The step fails, or the rest of the indices goes on from what
stands below the level, and the result is put into its place. -/
theorem writeAt_cons (h : (levelAt target i).leads = true) :
    writeAt max v target (i :: rest) =
      if (levelAt target i).overgrows max = true ∧ max < maxCount then
        .error (levelAt target i).failure
      else
        (writeAt max v (levelAt target i).start rest).map
          ((levelAt target i).value.setChild (.index i)) := by
  rcases map_or_container_eq target with ⟨fields, rfl⟩ | ⟨hmap, -⟩
  · rw [writeAt_cons_map, fieldAt_eq, if_neg (fun hover => Bool.false_ne_true hover.1)]
    rfl
  · rw [levelAt_of_not_map hmap] at h ⊢
    obtain ⟨p, hp⟩ := Option.isSome_iff_exists.mp h
    -- The count that is compared with the limit goes up to the largest one only.
    have hrefused : ((itemsOf target).length ≤ p ∧ max < min (p + 1) maxCount) ↔
        ((itemsOf target).length ≤ p ∧ max < p + 1) ∧ max < maxCount := by
      omega
    rw [writeAt_cons_array hp hmap, start_array hp, setChild_array hp, failure_array hp]
    simp only [hrefused, overgrows_array_iff hp]

/-- An index that leads nowhere leaves what it meets as it is. -/
theorem writeAt_cons_ignored (h : (levelAt target i).leads = false) :
    writeAt max v target (i :: rest) = .ok target := by
  rcases map_or_container_eq target with ⟨fields, rfl⟩ | ⟨hmap, -⟩
  · cases h
  · rw [levelAt_of_not_map hmap] at h
    have hnone : position? i = none := Option.not_isSome_iff_eq_none.mp (Bool.eq_false_iff.mp h)
    rw [writeAt.eq_3 max v target i rest hmap, hnone]

/-- What an assignment that succeeds has done at its first level. -/
theorem writeAt_cons_ok (hr : writeAt max v target (i :: rest) = .ok r) :
    ((levelAt target i).leads = false ∧ r = target) ∨
      ((levelAt target i).leads = true ∧ ∃ w, writeAt max v (levelAt target i).start rest = .ok w ∧
        r = (levelAt target i).value.setChild (.index i) w) := by
  by_cases hleads : (levelAt target i).leads = true
  · rw [writeAt_cons hleads] at hr
    split at hr
    · cases hr
    · exact .inr ⟨hleads, Chain.ok_of_map_eq_ok hr⟩
  · rw [Bool.not_eq_true] at hleads
    rw [writeAt_cons_ignored hleads] at hr
    exact .inl ⟨hleads, (Except.ok.inj hr).symm⟩

/-! ## Assignments whose indices all lead somewhere -/

/-- Where there is room at every level, an assignment writes behind its indices. -/
theorem writeAt_eq_writeAlong (hleads : ∀ l ∈ levelsOf target is, l.leads = true)
    (hroom : ∀ l ∈ levelsOf target is, l.overgrows max = false) :
    writeAt max v target is = .ok (writeAlong target (is.map .index) v) := by
  induction is generalizing target with
  | nil => rfl
  | cons i rest ih =>
    rw [levelsOf_cons, List.forall_mem_cons] at hleads hroom
    rw [writeAt_cons hleads.1, hroom.1, if_neg (fun hover => Bool.false_ne_true hover.1),
      ih hleads.2 hroom.2, writeAlong_start]
    rfl

/-- An assignment for which some array would grow beyond the limit fails at such an array. -/
theorem writeAt_of_overgrown (hmax : max < maxCount)
    (hleads : ∀ l ∈ levelsOf target is, l.leads = true)
    (hover : ∃ l ∈ levelsOf target is, l.overgrows max = true) :
    ∃ l ∈ levelsOf target is, l.overgrows max = true ∧
      writeAt max v target is = .error l.failure := by
  induction is generalizing target with
  | nil =>
    obtain ⟨l, hl, -⟩ := hover
    cases hl
  | cons i rest ih =>
    rw [levelsOf_cons, List.forall_mem_cons] at hleads
    rw [levelsOf_cons, List.exists_mem_cons_iff] at hover
    rw [levelsOf_cons, writeAt_cons hleads.1]
    by_cases hhere : (levelAt target i).overgrows max = true
    · rw [if_pos ⟨hhere, hmax⟩]
      exact ⟨_, List.mem_cons_self, hhere, rfl⟩
    · rw [if_neg (fun h => hhere h.1)]
      obtain ⟨l, hl, hgrows, hfailed⟩ := ih hleads.2 (hover.resolve_left hhere)
      rw [hfailed]
      exact ⟨l, List.mem_cons_of_mem _ hl, hgrows, rfl⟩

/-- A path of indices always leads to something. -/
theorem follow?_indices (v : Value) (is : List Value) :
    v.follow? (is.map .index) = some (is.foldl itemAt v) := by
  induction is generalizing v with
  | nil => rfl
  | cons i rest ih => exact ih (v.itemAt i)

/-- Whatever becomes of the other indices, an index that leads elsewhere than the first one reads
what it read before. -/
theorem itemAt_of_writeAt (hr : writeAt max v target (i :: rest) = .ok r)
    (hkind : target = nil ∨ target.container = target) {j : Value}
    (hj : target.Elsewhere (.index i) (.index j)) : r.itemAt j = target.itemAt j := by
  rcases writeAt_cons_ok hr with ⟨-, hsame⟩ | ⟨-, w, -, hput⟩
  · rw [hsame]
  · have hfits : (∃ fields, target.container = map fields) ∨
        ∃ items i', target.container = array items ∧ Step.index i = .index i' := by
      rcases map_or_container_eq target with ⟨fields, rfl⟩ | ⟨-, hcontainer⟩
      · exact .inl ⟨fields, rfl⟩
      · exact .inr ⟨_, i, hcontainer, rfl⟩
    have hread : r.child? (.index j) = target.container.child? (.index j) := by
      rw [hput]
      exact child?_setChild_of_elsewhere hj.container hfits w
    have hitem : r.itemAt j = target.container.itemAt j := Option.some.inj hread
    rw [hitem]
    rcases hkind with rfl | hcontainer
    · show ((position? j).bind fun p => ([] : List Value)[p]?).getD nil = nil
      cases position? j <;> rfl
    · rw [hcontainer]

/-! ## Assignments that an index ends -/

/-- There is an index that leads nowhere only if there is an index. -/
theorem ne_nil_of_ignored (h : ∃ l ∈ levelsOf target is, l.leads = false) : is ≠ [] := by
  intro hempty
  rw [hempty] at h
  obtain ⟨l, hl, -⟩ := h
  cases hl

/-- An assignment with an index that leads nowhere does not look at its value. -/
theorem writeAt_of_ignored (h : ∃ l ∈ levelsOf target is, l.leads = false) (v w : Value) :
    writeAt max v target is = writeAt max w target is := by
  induction is generalizing target with
  | nil => exact absurd rfl (ne_nil_of_ignored h)
  | cons i rest ih =>
    rw [levelsOf_cons, List.exists_mem_cons_iff] at h
    by_cases hleads : (levelAt target i).leads = true
    · have hrest := h.resolve_left (by rw [hleads]; exact Bool.noConfusion)
      rw [writeAt_cons hleads, writeAt_cons hleads, ih hrest]
    · rw [Bool.not_eq_true] at hleads
      rw [writeAt_cons_ignored hleads, writeAt_cons_ignored hleads]

/-- An array or a map is what a write starts from as it is. -/
theorem isContainer_iff (v : Value) : v.isContainer = true ↔ v.container = v := by
  cases v <;> simp [isContainer, container]

/-- An assignment below an array or a map leaves an array or a map. -/
theorem container_of_writeAt (hr : writeAt max v target is = .ok r) (hne : is ≠ [])
    (htarget : target.container = target) : r.container = r := by
  cases is with
  | nil => exact absurd rfl hne
  | cons i rest =>
    rcases writeAt_cons_ok hr with ⟨-, rfl⟩ | ⟨hleads, w, -, rfl⟩
    · exact htarget
    · exact container_setChild hleads w

/-- Setting a field to the value it has changes nothing. -/
theorem setKey_of_lookup? {fields : Table Value} (h : fields.Ordered) {name : String}
    (hv : lookup? fields name = some v) : setKey fields name v = fields := by
  obtain ⟨key, hkey, hget⟩ := Option.bind_eq_some_iff.mp hv
  unfold setKey fieldKey
  rw [hkey]
  exact h.insert_of_get? hget

/-- A map stays as it is exactly if what is put into it stands there already. -/
theorem setChild_map_eq_self_iff {fields : Table Value} (hordered : fields.Ordered) :
    (map fields).setChild (.index i) w = map fields ↔
      (levelAt (map fields) i).holds = true ∧ w = (levelAt (map fields) i).start := by
  show map (setKey fields i.toText w) = map fields ↔
    (lookup? fields i.toText).isSome = true ∧ w = (lookup? fields i.toText).getD nil
  constructor
  · intro h
    have hfound := lookup?_setKey_self fields i.toText w
    rw [Value.map.inj h] at hfound
    rw [hfound]
    exact ⟨rfl, rfl⟩
  · intro h
    obtain ⟨u, hu⟩ := Option.isSome_iff_exists.mp h.1
    rw [h.2, hu]
    exact congrArg map (setKey_of_lookup? hordered hu)

/-- The same of an array, or of what has made room for one. -/
theorem setChild_array_eq_self_iff (hmap : ∀ fields, target ≠ map fields)
    (hleads : (levelAt target i).leads = true) (hw : w.container = w) :
    (levelAt target i).value.setChild (.index i) w = target ↔
      (levelAt target i).holds = true ∧ w = (levelAt target i).start := by
  rw [levelAt_of_not_map hmap] at hleads ⊢
  obtain ⟨p, hp⟩ := Option.isSome_iff_exists.mp hleads
  rw [setChild_array hp, holds_array hp, start_array hp]
  constructor
  · intro h
    have hitem : (itemsOf target)[p]? = some w := by
      rw [← h]
      exact getElem?_set_padTo p _ w
    rw [hitem]
    exact ⟨(isContainer_iff w).mpr hw, hw.symm⟩
  · intro h
    obtain ⟨u, hu, hheld⟩ := (Option.any_eq_true _ _).mp h.1
    have hsame : w = u := by
      rw [h.2, hu]
      exact (isContainer_iff u).mp hheld
    obtain ⟨hlt, hget⟩ := List.getElem?_eq_some_iff.mp hu
    have htarget : target = array (itemsOf target) := by
      cases target with
      | array items => rfl
      | map fields => exact absurd rfl (hmap fields)
      | _ => cases hu
    have hset : (itemsOf target).set p w = itemsOf target := by
      rw [hsame, ← hget]
      exact List.set_getElem_self hlt
    rw [padTo_of_le hlt]
    exact (congrArg array hset).trans htarget.symm

/-- **When an assignment that an index ends changes nothing.**  All levels before that index have to
hold already what the assignment needs there. -/
theorem writeAt_eq_self_iff (hordered : ∀ l ∈ levelsOf target is, (fieldsOf l.value).Ordered)
    (hignored : ∃ l ∈ levelsOf target is, l.leads = false)
    (hr : writeAt max v target is = .ok r) :
    r = target ↔ ∀ l ∈ (levelsOf target is).takeWhile Level.leads, l.holds = true := by
  induction is generalizing target r with
  | nil => exact absurd rfl (ne_nil_of_ignored hignored)
  | cons i rest ih =>
    rw [levelsOf_cons, List.forall_mem_cons] at hordered
    rw [levelsOf_cons, List.exists_mem_cons_iff] at hignored
    rw [levelsOf_cons]
    rcases writeAt_cons_ok hr with ⟨hleads, hsame⟩ | ⟨hleads, w, hw, hput⟩
    · rw [List.takeWhile_cons_of_neg (by rw [hleads]; exact Bool.noConfusion)]
      exact iff_of_true hsame fun _ hl => absurd hl List.not_mem_nil
    · have hrest := hignored.resolve_left (by rw [hleads]; exact Bool.noConfusion)
      rw [List.takeWhile_cons_of_pos hleads, List.forall_mem_cons, ← ih hordered.2 hrest hw, hput]
      rcases map_or_container_eq target with ⟨fields, rfl⟩ | ⟨hmap, -⟩
      · exact setChild_map_eq_self_iff hordered.1
      · refine setChild_array_eq_self_iff hmap hleads ?_
        refine container_of_writeAt hw (ne_nil_of_ignored hrest) ?_
        rw [levelAt_of_not_map hmap]
        exact container_container _

end Value

open Value

/-- **An assignment below indices is a lawful write.**  Let every index that meets anything but a map
denote a place.  The assignment fails exactly if some array that it meets would have to grow to more
items than the limit, and then by `AllocationTooLarge`.  Otherwise it yields a value in which the
same indices lead to the value assigned.  If it starts from an array, a map or the empty value, every
index that leads elsewhere than the first one reads there what it read before: an index of another
place, and in a map one whose text differs from that of the first index in its normal form and in
more than the case of Latin letters. -/
theorem indexed_write_lawful (max : Nat) (hmax : max < maxCount) (v target i : Value)
    (rest : List Value) (hleads : ∀ l ∈ levelsOf target (i :: rest), l.leads = true) :
    ((∃ l ∈ levelsOf target (i :: rest), l.overgrows max = true) ↔
      ∃ e, e.kind = .allocationTooLarge ∧ writeAt max v target (i :: rest) = .error e) ∧
    ((∀ l ∈ levelsOf target (i :: rest), l.overgrows max = false) →
      ∃ r, writeAt max v target (i :: rest) = .ok r ∧
        (i :: rest).foldl itemAt r = v ∧
        (target = nil ∨ target.container = target →
          ∀ j, target.Elsewhere (.index i) (.index j) → r.itemAt j = target.itemAt j)) := by
  have hroom : (∀ l ∈ levelsOf target (i :: rest), l.overgrows max = false) →
      writeAt max v target (i :: rest) = .ok (writeAlong target ((i :: rest).map .index) v) :=
    writeAt_eq_writeAlong hleads
  refine ⟨⟨?_, ?_⟩, ?_⟩
  · intro hover
    obtain ⟨l, -, -, hfailed⟩ := writeAt_of_overgrown hmax hleads hover
    exact ⟨l.failure, rfl, hfailed⟩
  · intro hfailed
    obtain ⟨e, -, hfailed⟩ := hfailed
    by_contra hnone
    have hfits : ∀ l ∈ levelsOf target (i :: rest), l.overgrows max = false := by
      intro l hl
      exact Bool.eq_false_iff.mpr fun hover => hnone ⟨l, hl, hover⟩
    rw [hroom hfits] at hfailed
    cases hfailed
  · intro hfits
    refine ⟨_, hroom hfits, ?_, ?_⟩
    · apply Option.some.inj
      rw [← follow?_indices]
      exact follow?_writeAlong hleads v
    · intro hkind j hj
      exact itemAt_of_writeAt (hroom hfits) hkind hj

/-- A map whose key `a` is found by `A`, with an array in it that has to grow. -/
theorem indexed_write_lawful_grown :
    let target := map [("B", int 5), ("a", array [int 1])]
    let is := [str "A", int 2]
    (∀ l ∈ levelsOf target is, l.leads = true) ∧
    (∃ r, writeAt 3 (int 9) target is = .ok r ∧ is.foldl itemAt r = int 9 ∧
      r.itemAt (str "b") = target.itemAt (str "b")) ∧
    ∃ e, e.kind = .allocationTooLarge ∧ writeAt 2 (int 9) target is = .error e := by
  intro target is
  have hleads : ∀ l ∈ levelsOf target is, l.leads = true := by decide +kernel
  have happart : target.Elsewhere (.index (str "A")) (.index (str "b")) :=
    ⟨by decide +kernel, by decide +kernel⟩
  refine ⟨hleads, ?_, ?_⟩
  · obtain ⟨-, hwritten⟩ := indexed_write_lawful 3 (by decide) (int 9) target (str "A") [int 2] hleads
    obtain ⟨r, hr, hread, hother⟩ := hwritten (by decide +kernel)
    exact ⟨r, hr, hread, hother (.inr rfl) (str "b") happart⟩
  · obtain ⟨hfails, -⟩ := indexed_write_lawful 2 (by decide) (int 9) target (str "A") [int 2] hleads
    exact hfails.mp (by decide +kernel)

/-- **An assignment that an index ends only makes its way.**  Let some index meet anything but a map
and denote no place, and let the assignment not fail.  Then its result does not depend on the value
assigned.  It is the value that was there before exactly if every level before that index holds
already what the assignment needs below it: a field, or an array or a map at a place of an array.
Otherwise arrays have grown, fields have been added, or an item has been replaced by an array; but if
the assignment starts from an array, a map or the empty value, every index that leads elsewhere than
the first one reads what it read before. -/
theorem ignored_write_makes_way (max : Nat) (v target r i : Value) (rest : List Value)
    (hordered : ∀ l ∈ levelsOf target (i :: rest), (fieldsOf l.value).Ordered)
    (hignored : ∃ l ∈ levelsOf target (i :: rest), l.leads = false)
    (hr : writeAt max v target (i :: rest) = .ok r) :
    (∀ w, writeAt max w target (i :: rest) = .ok r) ∧
    (r = target ↔
      ∀ l ∈ (levelsOf target (i :: rest)).takeWhile Level.leads, l.holds = true) ∧
    (target = nil ∨ target.container = target →
      ∀ j, target.Elsewhere (.index i) (.index j) → r.itemAt j = target.itemAt j) := by
  refine ⟨?_, writeAt_eq_self_iff hordered hignored hr, ?_⟩
  · intro w
    rw [writeAt_of_ignored hignored w v]
    exact hr
  · intro hkind j hj
    exact itemAt_of_writeAt hr hkind hj

/-- The field that the first index finds is an array already, and so nothing changes. -/
theorem ignored_write_makes_way_untouched :
    let target := map [("A", array []), ("B", int 5)]
    let is := [str "a", int (-1)]
    (∃ l ∈ levelsOf target is, l.leads = false) ∧ writeAt 10 (int 9) target is = .ok target := by
  intro target is
  have hordered : ∀ l ∈ levelsOf target is, (fieldsOf l.value).Ordered := by
    unfold Table.Ordered
    decide +kernel
  have hignored : ∃ l ∈ levelsOf target is, l.leads = false := by decide +kernel
  obtain ⟨r, hr⟩ : ∃ r, writeAt 10 (int 9) target is = .ok r := ⟨_, rfl⟩
  obtain ⟨-, hsame, -⟩ := ignored_write_makes_way 10 (int 9) target r (str "a") [int (-1)] hordered
    hignored hr
  rw [hsame.mpr (by decide +kernel)] at hr
  exact ⟨hignored, hr⟩

/-- An index that denotes no place, and an item that is gone all the same: the level above has made
room for an array. -/
theorem ignored_write_loses_item :
    let target := array [int 7]
    let is := [int 0, int (-1)]
    (∃ l ∈ levelsOf target is, l.leads = false) ∧
      writeAt 10 (int 9) target is = .ok (array [array []]) ∧ array [array []] ≠ target := by
  refine ⟨by decide +kernel, rfl, ?_⟩
  intro h
  cases h

end BasicScript
