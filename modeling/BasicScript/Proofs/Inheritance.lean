import BasicScript.Proofs.Method
import Mathlib.Data.Fintype.Pigeonhole

/-!
# Inheritance

A walk along the parents of a type may end at a type without a parent or at a name that nobody has
registered, or it may go round in a circle for ever.  Here the way upward is described without an
end: `ancestorName?` is the name that lies any number of parent links above a name.  The table of
types takes one step more than it has entries, and that is enough.  A longer way has met some name
twice, so whatever lies on it has been met before.

* `ancestorName?`, `ancestor?`: the names and the types above a name.
* `TypeTable.ancestorName?_within`: a registered name on the way is met within as many steps as
  there are types.
* `DeclaredAt`: the nearest type on the way that declares a field.
* `MetBefore`: one method is met before another one.
* `inheritance_exact` is the main statement.
-/

namespace BasicScript

/-! ## The way upward -/

section Climb

/-- The name that lies some number of parent links above a name. -/
def ancestorName? (type? : String → Option TypeInfo) (name : String) : Nat → Option String
  | 0 => some name
  | k + 1 => (ancestorName? type? name k).bind fun a => (type? a).bind (·.parent)

/-- The type that lies some number of parent links above a name. -/
def ancestor? (type? : String → Option TypeInfo) (name : String) (k : Nat) : Option TypeInfo :=
  (ancestorName? type? name k).bind type?

variable {type? : String → Option TypeInfo} {name a : String} {k : Nat}

/-- One step further along the parents. -/
theorem ancestorName?_succ (type? : String → Option TypeInfo) (name : String) (k : Nat) :
    ancestorName? type? name (k + 1) = (ancestor? type? name k).bind (·.parent) :=
  (Option.bind_assoc _ _ _).symm

/-- The way goes on from every name on it as if it began there. -/
theorem ancestorName?_add (i k : Nat) :
    ancestorName? type? name (i + k) =
      (ancestorName? type? name i).bind fun a => ancestorName? type? a k := by
  induction k with
  | zero => exact (Option.bind_fun_some _).symm
  | succ k ih =>
    show (ancestorName? type? name (i + k)).bind _ = _
    rw [ih, Option.bind_assoc]
    rfl

/-- What lies above a name lies above its parent, but for the name itself. -/
theorem ancestor?_succ (k : Nat) :
    ancestor? type? name (k + 1) =
      ((type? name).bind (·.parent)).bind fun a => ancestor? type? a k := by
  unfold ancestor?
  rw [Nat.add_comm k 1, ancestorName?_add, Option.bind_assoc]
  rfl

/-- Nothing lies above a name that is not registered. -/
theorem ancestor?_of_none (h : type? name = none) (k : Nat) : ancestor? type? name k = none := by
  cases k with
  | zero => exact h
  | succ k =>
    rw [ancestor?_succ, h]
    rfl

/-- All names below one that is reached are registered. -/
theorem ancestor?_of_lt (h : ancestorName? type? name k = some a) {i : Nat} (hi : i < k) :
    ∃ t, ancestor? type? name i = some t := by
  obtain ⟨d, rfl⟩ := Nat.exists_eq_add_of_lt hi
  have hsplit : i + d + 1 = (i + 1) + d := by omega
  rw [hsplit, ancestorName?_add, ancestorName?_succ] at h
  obtain ⟨b, hb, -⟩ := Option.bind_eq_some_iff.mp h
  obtain ⟨t, ht, -⟩ := Option.bind_eq_some_iff.mp hb
  exact ⟨t, ht⟩

/-- Two ways to find types that agree on the names of a way agree on its types. -/
theorem ancestorName?_congr {type?' : String → Option TypeInfo}
    (h : ∀ k a, ancestorName? type? name k = some a → type?' a = type? a) (k : Nat) :
    ancestorName? type?' name k = ancestorName? type? name k := by
  induction k with
  | zero => rfl
  | succ k ih =>
    show (ancestorName? type?' name k).bind _ = (ancestorName? type? name k).bind _
    rw [ih]
    refine Option.bind_congr fun a ha => ?_
    rw [h k a ha]

end Climb

/-! ## Circles -/

namespace TypeTable

variable {ts : TypeTable} {name a : String} {k : Nat}

/-- A way of more types than there are in the table meets a name twice. -/
theorem exists_repeat (h : ∀ i ≤ ts.length, ∃ t, ancestor? (Table.get? ts) name i = some t) :
    ∃ i j, i < j ∧ j ≤ ts.length ∧
      ancestorName? (Table.get? ts) name i = ancestorName? (Table.get? ts) name j := by
  have hplace : ∀ i : Fin (ts.length + 1), ∃ place : Fin ts.length,
      ancestorName? (Table.get? ts) name i = some ts[place].1 := by
    intro i
    obtain ⟨t, ht⟩ := h i (by omega)
    obtain ⟨b, hb, hget⟩ := Option.bind_eq_some_iff.mp ht
    obtain ⟨place, hplace, hentry⟩ := List.getElem_of_mem (Table.mem_of_get? hget)
    refine ⟨⟨place, hplace⟩, ?_⟩
    rw [hb]
    exact congrArg (fun e => some e.1) hentry.symm
  choose place hplace using hplace
  have hcard : Fintype.card (Fin ts.length) < Fintype.card (Fin (ts.length + 1)) := by
    simp
  obtain ⟨i, j, hne, heq⟩ := Fintype.exists_ne_map_eq_of_card_lt place hcard
  have hsame : ancestorName? (Table.get? ts) name i = ancestorName? (Table.get? ts) name j := by
    rw [hplace i, hplace j, heq]
  rcases Nat.lt_or_gt_of_ne (Fin.val_ne_of_ne hne) with hlt | hlt
  · exact ⟨i, j, hlt, by omega, hsame⟩
  · exact ⟨j, i, hlt, by omega, hsame.symm⟩

/-- A registered name that is met at all is met within as many steps as there are types. -/
theorem ancestorName?_within (h : ancestorName? (Table.get? ts) name k = some a)
    (ha : ∃ t, Table.get? ts a = some t) :
    ∃ i ≤ k, i < ts.length ∧ ancestorName? (Table.get? ts) name i = some a := by
  induction k using Nat.strong_induction_on with
  | _ k ih =>
    by_cases hk : k < ts.length
    · exact ⟨k, Nat.le_refl k, hk, h⟩
    -- The way up to here is longer than the table, so a part of it can be left out.
    have hall : ∀ i ≤ ts.length, ∃ t, ancestor? (Table.get? ts) name i = some t := by
      intro i hi
      by_cases hik : i < k
      · exact ancestor?_of_lt h hik
      · obtain ⟨t, ht⟩ := ha
        obtain rfl : i = k := by omega
        exact ⟨t, Option.bind_eq_some_iff.mpr ⟨a, h, ht⟩⟩
    obtain ⟨i, j, hij, hj, hsame⟩ := exists_repeat hall
    obtain ⟨d, rfl⟩ := Nat.exists_eq_add_of_le (show j ≤ k by omega)
    rw [ancestorName?_add, ← hsame, ← ancestorName?_add] at h
    obtain ⟨l, hl, hlt, hname⟩ := ih (i + d) (by omega) h
    exact ⟨l, by omega, hlt, hname⟩

/-- A type that is met along the parents is met within as many steps as there are types. -/
theorem ancestor?_within {t : TypeInfo} (h : ancestor? (Table.get? ts) name k = some t) :
    ∃ i ≤ k, i < ts.length ∧ ancestor? (Table.get? ts) name i = some t := by
  obtain ⟨a, ha, ht⟩ := Option.bind_eq_some_iff.mp h
  obtain ⟨i, hik, hi, hname⟩ := ancestorName?_within ha ⟨t, ht⟩
  exact ⟨i, hik, hi, Option.bind_eq_some_iff.mpr ⟨a, hname, ht⟩⟩

/-! ## The walks of the table -/

/-- The parents of all types are named in upper case. -/
def ParentsUpper (ts : TypeTable) : Prop :=
  ∀ name t parent, Table.get? ts name = some t → t.parent = some parent →
    Text.upper parent = parent

/-- The names on the way from a name in upper case are in upper case. -/
theorem ParentsUpper.ancestorName? (h : ts.ParentsUpper) (hname : Text.upper name = name)
    (hk : ancestorName? (Table.get? ts) name k = some a) : Text.upper a = a := by
  cases k with
  | zero =>
    cases hk
    exact hname
  | succ k =>
    obtain ⟨b, -, hparent⟩ := Option.bind_eq_some_iff.mp hk
    obtain ⟨t, ht, hparent⟩ := Option.bind_eq_some_iff.mp hparent
    exact h b t a ht hparent

/-- On the way from a name in upper case it makes no difference that a type is found by a name in any
case. -/
theorem ParentsUpper.ancestor?_find? (h : ts.ParentsUpper) (hname : Text.upper name = name)
    (k : Nat) : ancestor? ts.find? name k = ancestor? (Table.get? ts) name k := by
  have hagree : ∀ k a, BasicScript.ancestorName? (Table.get? ts) name k = some a →
      ts.find? a = Table.get? ts a := by
    intro k a ha
    unfold find?
    rw [h.ancestorName? hname ha]
  unfold ancestor?
  rw [ancestorName?_congr hagree k]
  exact Option.bind_congr fun a ha => hagree k a ha

/-- The names along the parents, one by one. -/
theorem getElem?_ancestors (ts : TypeTable) (name : String) {fuel i : Nat} (hi : i < fuel) :
    (ts.ancestors fuel name)[i]? = ancestorName? (Table.get? ts) name i := by
  induction fuel generalizing name i with
  | zero => exact absurd hi (Nat.not_lt_zero i)
  | succ fuel ih =>
    cases i with
    | zero => rfl
    | succ i =>
      have hclimb : ancestorName? (Table.get? ts) name (i + 1) =
          ((Table.get? ts name).bind (·.parent)).bind fun p =>
            ancestorName? (Table.get? ts) p i := by
        rw [Nat.add_comm i 1, ancestorName?_add]
        rfl
      rw [hclimb, ancestors, List.getElem?_cons_succ]
      split
      · next p hp =>
        rw [hp]
        exact ih p (by omega)
      · next hp =>
        rw [hp]
        rfl

/-- The walk along the names ends. -/
theorem length_ancestors_le (ts : TypeTable) (fuel : Nat) (name : String) :
    (ts.ancestors fuel name).length ≤ fuel := by
  induction fuel generalizing name with
  | zero => exact Nat.le_refl 0
  | succ fuel ih =>
    unfold ancestors
    rw [List.length_cons]
    split
    · next p _ => exact Nat.succ_le_succ (ih p)
    · exact Nat.succ_le_succ (Nat.zero_le fuel)

/-- A name leads to another one if and only if that lies on its way upward. -/
theorem isSubtype_iff (ts : TypeTable) (child parent : String) :
    ts.isSubtype child parent = true ↔
      ∃ k, ancestorName? (Table.get? ts) (Text.upper child) k = some (Text.upper parent) := by
  unfold isSubtype
  rw [List.contains_iff_mem]
  constructor
  · intro hmem
    obtain ⟨i, hi, hname⟩ := List.getElem_of_mem hmem
    have hlt : i < ts.length + 1 :=
      Nat.lt_of_lt_of_le hi (length_ancestors_le ts (ts.length + 1) (Text.upper child))
    refine ⟨i, ?_⟩
    rw [← getElem?_ancestors ts _ hlt, List.getElem?_eq_getElem hi, hname]
  · rintro ⟨k, hk⟩
    have hstep : ∃ i ≤ ts.length,
        ancestorName? (Table.get? ts) (Text.upper child) i = some (Text.upper parent) := by
      cases k with
      | zero => exact ⟨0, Nat.zero_le _, hk⟩
      | succ k =>
        -- The name itself need not be registered, but the one before it is.
        rw [ancestorName?_succ] at hk
        obtain ⟨t, ht, hparent⟩ := Option.bind_eq_some_iff.mp hk
        obtain ⟨i, -, hi, ht⟩ := ancestor?_within ht
        refine ⟨i + 1, hi, ?_⟩
        rw [ancestorName?_succ, ht]
        exact hparent
    obtain ⟨i, hi, hname⟩ := hstep
    refine List.mem_iff_getElem?.mpr ⟨i, ?_⟩
    rw [getElem?_ancestors ts _ (Nat.lt_succ_of_le hi)]
    exact hname

/-- The types along the parents, one by one. -/
theorem getElem?_lineageFrom {t : TypeInfo} (h : ts.find? name = some t) {fuel i : Nat}
    (hi : i < fuel) : (ts.lineageFrom fuel t)[i]? = ancestor? ts.find? name i := by
  induction fuel generalizing name t i with
  | zero => exact absurd hi (Nat.not_lt_zero i)
  | succ fuel ih =>
    cases i with
    | zero => exact h.symm
    | succ i =>
      rw [ancestor?_succ, h, lineageFrom, List.getElem?_cons_succ]
      split
      · next t' ht' =>
        obtain ⟨p, hparent, hp⟩ := Option.bind_eq_some_iff.mp ht'
        rw [Option.bind_some, hparent]
        exact ih hp (by omega)
      · next hnone =>
        rw [Option.bind_some]
        cases hparent : t.parent with
        | none => rfl
        | some p =>
          have hp : ts.find? p = none := by
            rw [hparent] at hnone
            exact hnone
          exact (ancestor?_of_none hp i).symm

/-- The walk along the types ends. -/
theorem length_lineageFrom_le (ts : TypeTable) (fuel : Nat) (t : TypeInfo) :
    (ts.lineageFrom fuel t).length ≤ fuel := by
  induction fuel generalizing t with
  | zero => exact Nat.le_refl 0
  | succ fuel ih =>
    unfold lineageFrom
    rw [List.length_cons]
    split
    · next p _ => exact Nat.succ_le_succ (ih p)
    · exact Nat.succ_le_succ (Nat.zero_le fuel)

/-- The lineage of a type is the way upward, as far as the number of types. -/
theorem ParentsUpper.getElem?_lineage (h : ts.ParentsUpper) (hname : Text.upper name = name)
    {t : TypeInfo} (ht : Table.get? ts name = some t) {i : Nat} (hi : i ≤ ts.length) :
    (ts.lineage t)[i]? = ancestor? (Table.get? ts) name i := by
  have hfind : ts.find? name = some t := by
    unfold find?
    rw [hname, ht]
  rw [← h.ancestor?_find? hname i]
  exact getElem?_lineageFrom hfind (Nat.lt_succ_of_le hi)

/-- A lineage has at most one type more than there are types. -/
theorem lt_of_getElem?_lineage {t t' : TypeInfo} {i : Nat} (h : (ts.lineage t)[i]? = some t') :
    i ≤ ts.length := by
  obtain ⟨hi, -⟩ := List.getElem?_eq_some_iff.mp h
  exact Nat.le_of_lt_succ (Nat.lt_of_lt_of_le hi (length_lineageFrom_le ts _ t))

end TypeTable

/-! ## Fields -/

/-- The declared type of the last field of a name, if a type has such a field itself. -/
def TypeInfo.declared? (t : TypeInfo) (field : String) : Option (Option String) :=
  ((t.fields.filter (·.1 = field)).getLast?).map (·.2)

/-- The first type on the way upward that declares a field lies some number of parent links above a
name, and declares it with some type. -/
structure DeclaredAt (type? : String → Option TypeInfo) (name field : String) (k : Nat)
    (type : Option String) : Prop where
  here : (ancestor? type? name k).bind (·.declared? field) = some type
  nearest : ∀ i < k, (ancestor? type? name i).bind (·.declared? field) = none

namespace TypeTable

/-- A type puts its own fields in place of those it inherits. -/
theorem get?_initFields (fields : Table Value) (t : TypeInfo) (field : String) :
    Table.get? (initFields fields t) field =
      ((t.declared? field).map Value.initial).or (Table.get? fields field) := by
  let slot? : String × Option String → Option (String × Value) :=
    fun f => some (f.1, Value.initial f.2)
  have henter : initFields fields t = Table.enterAll slot? fields t.fields := by
    unfold initFields Table.insertAll
    rw [List.foldl_map]
    rfl
  have hsought : t.fields.filterMap (Table.sought slot? field) =
      (t.fields.filter (·.1 = field)).map fun f => Value.initial f.2 := by
    rw [← List.filterMap_eq_map, List.filterMap_filter]
    refine List.filterMap_congr fun f _ => ?_
    by_cases hf : f.1 = field <;> simp [Table.sought, slot?, hf]
  rw [henter, Table.get?_enterAll, hsought, List.getLast?_map]
  unfold TypeInfo.declared?
  rw [Option.map_map]
  rfl

/-- A field of a new object is that of the nearest type that declares it. -/
theorem get?_foldr_initFields (types : List TypeInfo) (field : String) :
    Table.get? (types.foldr (fun t fields => initFields fields t) []) field =
      (types.findSome? (·.declared? field)).map Value.initial := by
  induction types with
  | nil => rfl
  | cons t rest ih =>
    rw [List.foldr_cons, get?_initFields, ih, List.findSome?_cons]
    cases t.declared? field <;> rfl

end TypeTable

/-- The first result of a search through a list is that of the first place that has one. -/
theorem findSome?_eq_some_iff_getElem? {α β : Type} {f : α → Option β} {xs : List α} {b : β} :
    xs.findSome? f = some b ↔
      ∃ i : Nat, xs[i]?.bind f = some b ∧ ∀ j < i, xs[j]?.bind f = none := by
  induction xs with
  | nil => simp
  | cons x rest ih =>
    rw [List.findSome?_cons]
    cases hx : f x with
    | some b' =>
      constructor
      · intro h
        exact ⟨0, hx.trans h, fun j hj => absurd hj (Nat.not_lt_zero j)⟩
      · rintro ⟨i, hi, hbefore⟩
        cases i with
        | zero => exact hx.symm.trans hi
        | succ i =>
          have hnone : f x = none := hbefore 0 (Nat.succ_pos i)
          rw [hx] at hnone
          cases hnone
    | none =>
      rw [ih]
      constructor
      · rintro ⟨i, hi, hbefore⟩
        refine ⟨i + 1, hi, fun j hj => ?_⟩
        cases j with
        | zero => exact hx
        | succ j => exact hbefore j (Nat.lt_of_succ_lt_succ hj)
      · rintro ⟨i, hi, hbefore⟩
        cases i with
        | zero =>
          have hsome : f x = some b := hi
          rw [hx] at hsome
          cases hsome
        | succ i => exact ⟨i, hi, fun j hj => hbefore (j + 1) (Nat.succ_lt_succ hj)⟩

namespace TypeTable

section Lineage

variable {ts : TypeTable} {name : String} {t : TypeInfo} (h : ts.ParentsUpper)
  (hname : Text.upper name = name) (ht : Table.get? ts name = some t)
include h hname ht

/-- The first type of the lineage that declares a field is the first one on the way upward. -/
theorem ParentsUpper.findSome?_lineage {field : String} {type : Option String} :
    (ts.lineage t).findSome? (·.declared? field) = some type ↔
      ∃ k, DeclaredAt (Table.get? ts) name field k type := by
  rw [findSome?_eq_some_iff_getElem?]
  constructor
  · rintro ⟨i, hi, hbefore⟩
    obtain ⟨t', ht', -⟩ := Option.bind_eq_some_iff.mp hi
    have hle := lt_of_getElem?_lineage ht'
    refine ⟨i, ?_, fun j hj => ?_⟩
    · rw [← h.getElem?_lineage hname ht hle]
      exact hi
    · rw [← h.getElem?_lineage hname ht (show j ≤ ts.length by omega)]
      exact hbefore j hj
  · rintro ⟨k, hhere, hnearest⟩
    obtain ⟨t', ht', htype⟩ := Option.bind_eq_some_iff.mp hhere
    obtain ⟨i, hik, hi, hti⟩ := ancestor?_within ht'
    -- The nearest type is met before the way comes round to it again.
    have hk : k = i := by
      by_contra hne
      have hnone := hnearest i (by omega)
      rw [hti] at hnone
      exact absurd (htype.symm.trans hnone) (Option.some_ne_none type)
    subst hk
    refine ⟨k, ?_, fun j hj => ?_⟩
    · rw [h.getElem?_lineage hname ht hi.le]
      exact hhere
    · rw [h.getElem?_lineage hname ht (show j ≤ ts.length by omega)]
      exact hnearest j hj

/-- A new object has its tag, and every field with what the nearest type that declares it gives it to
start with. -/
theorem ParentsUpper.get?_freshFields {field : String} (hfield : field ≠ Value.typeKey)
    {v : Value} :
    Table.get? (ts.freshFields t) field = some v ↔
      ∃ k type, DeclaredAt (Table.get? ts) name field k type ∧ v = Value.initial type := by
  unfold freshFields
  rw [Table.get?_insert_of_ne _ _ hfield.symm, get?_foldr_initFields, Option.map_eq_some_iff]
  constructor
  · rintro ⟨type, hfound, rfl⟩
    obtain ⟨k, hk⟩ := (h.findSome?_lineage hname ht).mp hfound
    exact ⟨k, type, hk, rfl⟩
  · rintro ⟨k, type, hk, rfl⟩
    exact ⟨type, (h.findSome?_lineage hname ht).mpr ⟨k, hk⟩, rfl⟩

end Lineage

end TypeTable

/-! ## Methods -/

/-- Among names that stand in rows, one stands somewhere, and another one only at places behind
it. -/
def MetBefore (place : Nat → Nat → Option String) (a b : String) : Prop :=
  ∃ k i, place k i = some a ∧ ∀ l j, place l j = some b → k < l ∨ k = l ∧ i < j

/-- The names of a list of lists. -/
def rows (lists : List (List String)) (k i : Nat) : Option String :=
  lists[k]?.bind (·[i]?)

namespace TypeTable

/-- What is added to a list of names, in the order in which it is met. -/
theorem addMissing_eq_append (known names : List String) :
    ∃ new, addMissing known names = known ++ new ∧ new.Nodup ∧
      (∀ a, a ∈ new ↔ a ∈ names ∧ a ∉ known) ∧
      new.Pairwise fun a b =>
        ∃ i : Nat, names[i]? = some a ∧ ∀ j : Nat, names[j]? = some b → i < j := by
  induction names generalizing known with
  | nil => exact ⟨[], (List.append_nil known).symm, .nil, by simp, .nil⟩
  | cons n rest ih =>
    by_cases hknown : n ∈ known
    · obtain ⟨new, heq, hnodup, hmem, hordered⟩ := ih known
      have hstep : addMissing known (n :: rest) = addMissing known rest := by
        unfold addMissing
        rw [List.foldl_cons, if_pos (List.contains_iff_mem.mpr hknown)]
      refine ⟨new, hstep.trans heq, hnodup, fun a => ?_, hordered.imp_of_mem ?_⟩
      · rw [hmem, List.mem_cons]
        grind
      · rintro a b - hb ⟨i, hi, hbefore⟩
        refine ⟨i + 1, hi, fun j hj => ?_⟩
        cases j with
        | zero => exact absurd (Option.some.inj hj ▸ hknown) ((hmem b).mp hb).2
        | succ j => exact Nat.succ_lt_succ (hbefore j hj)
    · obtain ⟨new, heq, hnodup, hmem, hordered⟩ := ih (known ++ [n])
      have hstep : addMissing known (n :: rest) = addMissing (known ++ [n]) rest := by
        unfold addMissing
        rw [List.foldl_cons, if_neg (by simpa using hknown)]
      have hfresh : ∀ b ∈ new, b ≠ n := by
        intro b hb heq
        exact ((hmem b).mp hb).2 (heq ▸ List.mem_append_right known List.mem_cons_self)
      refine ⟨n :: new, ?_, ?_, fun a => ?_, ?_⟩
      · rw [hstep, heq, List.append_assoc]
        rfl
      · exact List.nodup_cons.mpr ⟨fun hn => hfresh n hn rfl, hnodup⟩
      · rw [List.mem_cons, List.mem_cons, hmem, List.mem_append, List.mem_singleton]
        grind
      · refine List.pairwise_cons.mpr ⟨fun b hb => ⟨0, rfl, fun j hj => ?_⟩, ?_⟩
        · cases j with
          | zero => exact absurd (Option.some.inj hj).symm (hfresh b hb)
          | succ j => exact Nat.succ_pos j
        · refine hordered.imp_of_mem ?_
          rintro a b - hb ⟨i, hi, hbefore⟩
          refine ⟨i + 1, hi, fun j hj => ?_⟩
          cases j with
          | zero => exact absurd (Option.some.inj hj).symm (hfresh b hb)
          | succ j => exact Nat.succ_lt_succ (hbefore j hj)

/-- What is added from several lists one after the other. -/
theorem foldl_addMissing_eq_append (known : List String) (lists : List (List String)) :
    ∃ new, lists.foldl addMissing known = known ++ new ∧ new.Nodup ∧
      (∀ a ∈ new, a ∉ known) ∧ new.Pairwise (MetBefore (rows lists)) := by
  induction lists generalizing known with
  | nil => exact ⟨[], (List.append_nil known).symm, .nil, nofun, .nil⟩
  | cons names rest ih =>
    obtain ⟨first, hfirst, hnodup₁, hmem₁, hordered₁⟩ := addMissing_eq_append known names
    obtain ⟨later, hlater, hnodup₂, hfresh₂, hordered₂⟩ := ih (known ++ first)
    -- Whatever the later lists add does not stand in the first one.
    have hapart : ∀ b ∈ later, b ∉ names := by
      intro b hb hnames
      have hb' := hfresh₂ b hb
      rw [List.mem_append, hmem₁] at hb'
      grind
    refine ⟨first ++ later, ?_, ?_, ?_, ?_⟩
    · rw [List.foldl_cons, hfirst, hlater, List.append_assoc]
    · refine List.nodup_append.mpr ⟨hnodup₁, hnodup₂, ?_⟩
      rintro a ha b hb rfl
      exact hapart a hb ((hmem₁ a).mp ha).1
    · intro a ha
      rcases List.mem_append.mp ha with ha | ha
      · exact ((hmem₁ a).mp ha).2
      · exact fun hknown => hfresh₂ a ha (List.mem_append_left first hknown)
    · refine List.pairwise_append.mpr ⟨?_, ?_, ?_⟩
      · refine hordered₁.imp ?_
        rintro a b ⟨i, hi, hbefore⟩
        refine ⟨0, i, hi, fun l j hj => ?_⟩
        cases l with
        | zero => exact .inr ⟨rfl, hbefore j hj⟩
        | succ l => exact .inl (Nat.succ_pos l)
      · refine hordered₂.imp_of_mem ?_
        rintro a b - hb ⟨k, i, hi, hbefore⟩
        refine ⟨k + 1, i, hi, fun l j hj => ?_⟩
        cases l with
        | zero => exact absurd (List.mem_of_getElem? hj) (hapart b hb)
        | succ l => exact (hbefore l j hj).imp Nat.succ_lt_succ fun h => ⟨by omega, h.2⟩
      · intro a ha b hb
        obtain ⟨i, hi⟩ := List.mem_iff_getElem?.mp ((hmem₁ a).mp ha).1
        refine ⟨0, i, hi, fun l j hj => ?_⟩
        cases l with
        | zero => exact absurd (List.mem_of_getElem? hj) (hapart b hb)
        | succ l => exact .inl (Nat.succ_pos l)

section Lineage

variable {ts : TypeTable} {name : String} {t : TypeInfo} (h : ts.ParentsUpper)
  (hname : Text.upper name = name) (ht : Table.get? ts name = some t)
include h hname ht

/-- The lineage has the types on the way upward, all of them. -/
theorem ParentsUpper.mem_lineage {t' : TypeInfo} :
    t' ∈ ts.lineage t ↔ ∃ k, ancestor? (Table.get? ts) name k = some t' := by
  rw [List.mem_iff_getElem?]
  constructor
  · rintro ⟨i, hi⟩
    refine ⟨i, ?_⟩
    rw [← h.getElem?_lineage hname ht (lt_of_getElem?_lineage hi)]
    exact hi
  · rintro ⟨k, hk⟩
    obtain ⟨i, -, hi, ht'⟩ := ancestor?_within hk
    refine ⟨i, ?_⟩
    rw [h.getElem?_lineage hname ht hi.le]
    exact ht'

/-- The methods of a type are listed once each, in the order in which they are met on the way
upward. -/
theorem ParentsUpper.lineage_methods :
    let listed := (ts.lineage t).foldl (fun known t => addMissing known t.methods) []
    listed.Nodup ∧ listed.Pairwise
      (MetBefore fun k i => (ancestor? (Table.get? ts) name k).bind (·.methods[i]?)) := by
  intro listed
  obtain ⟨new, hnew, hnodup, -, hordered⟩ :=
    foldl_addMissing_eq_append [] ((ts.lineage t).map (·.methods))
  have hlisted : listed = new := by
    rw [List.foldl_map] at hnew
    exact hnew
  rw [hlisted]
  refine ⟨hnodup, hordered.imp ?_⟩
  rintro a b ⟨k, i, hi, hbefore⟩
  have hrow : ∀ l ≤ ts.length, ∀ j, rows ((ts.lineage t).map (·.methods)) l j =
      (ancestor? (Table.get? ts) name l).bind (·.methods[j]?) := by
    intro l hl j
    unfold rows
    rw [List.getElem?_map, h.getElem?_lineage hname ht hl, Option.bind_map]
    rfl
  have hk : k ≤ ts.length := by
    obtain ⟨names, hnames, -⟩ := Option.bind_eq_some_iff.mp hi
    rw [List.getElem?_map] at hnames
    obtain ⟨t', ht', -⟩ := Option.map_eq_some_iff.mp hnames
    exact lt_of_getElem?_lineage ht'
  refine ⟨k, i, (hrow k hk i).symm.trans hi, fun l j hj => ?_⟩
  -- Beyond the end of the lineage every place is behind this one.
  by_cases hl : l ≤ ts.length
  · exact hbefore l j ((hrow l hl j).trans hj)
  · exact .inl (by omega)

end Lineage

end TypeTable

/-! ## Registered types -/

/-- The table of types that are registered one after the other. -/
def TypeTable.ofTypes (types : List TypeInfo) : TypeTable :=
  types.foldl register []

/-- The type that was registered last under a name. -/
def registered? (types : List TypeInfo) (name : String) : Option TypeInfo :=
  (types.filter (·.name = name)).getLast?

/-- The type of a name is the last one that was registered under it. -/
theorem TypeTable.get?_ofTypes (types : List TypeInfo) :
    Table.get? (ofTypes types) = registered? types := by
  funext name
  have henter : ofTypes types = Table.enterAll (fun t => some (t.name, t)) [] types := rfl
  rw [henter, Table.get?_enterAll]
  unfold registered? Table.sought
  rw [Table.get?_nil, Option.or_none, ← List.filterMap_eq_filter]
  congr 2
  funext t
  by_cases ht : t.name = name <;> simp [Option.guard, ht]

/-- Parents in upper case, said of the types that are registered. -/
theorem TypeTable.parentsUpper_ofTypes {types : List TypeInfo}
    (h : ∀ t ∈ types, ∀ parent ∈ t.parent, Text.upper parent = parent) :
    (ofTypes types).ParentsUpper := by
  intro name t parent ht hparent
  rw [get?_ofTypes] at ht
  exact h t (List.mem_of_mem_filter (List.mem_of_getLast? ht)) parent hparent

/-- **Inheritance is computed exactly, also round circles.**  Types are registered one after the
other, with parents that are named in upper case, that may be unknown, and that may lead round in
circles.  Then

* a name is a subtype of another one if and only if that one lies any number of parent links above
  it, registered or not;
* the methods that are listed for a registered type are those of all types above it and its own, each
  listed once, and one before another if it is met first on the way upward;
* a new object of a registered type has its tag and the fields of all these types and nothing else,
  each with what the nearest type that declares it gives it to start with, by its last declaration
  there. -/
theorem inheritance_exact (types : List TypeInfo)
    (hupper : ∀ t ∈ types, ∀ parent ∈ t.parent, Text.upper parent = parent) :
    let ts := TypeTable.ofTypes types
    (∀ child parent, ts.isSubtype child parent = true ↔
      ∃ k, ancestorName? (registered? types) (Text.upper child) k = some (Text.upper parent)) ∧
    ∀ name t, registered? types (Text.upper name) = some t →
      ((ts.methodsOf name).Nodup ∧
        (∀ method, method ∈ ts.methodsOf name ↔
          ∃ k t', ancestor? (registered? types) (Text.upper name) k = some t' ∧
            method ∈ t'.methods) ∧
        (ts.methodsOf name).Pairwise (MetBefore fun k i =>
          (ancestor? (registered? types) (Text.upper name) k).bind (·.methods[i]?))) ∧
      ∃ fields, ts.instance? name = some (.map fields) ∧
        Table.get? fields Value.typeKey = some (.str (Text.upper name)) ∧
        ∀ field, field ≠ Value.typeKey → ∀ v, Table.get? fields field = some v ↔
          ∃ k type, DeclaredAt (registered? types) (Text.upper name) field k type ∧
            v = Value.initial type := by
  intro ts
  have hparents : ts.ParentsUpper := TypeTable.parentsUpper_ofTypes hupper
  have hget : Table.get? ts = registered? types := TypeTable.get?_ofTypes types
  refine ⟨fun child parent => ?_, fun name t ht => ?_⟩
  · rw [← hget]
    exact ts.isSubtype_iff child parent
  · have hfind : ts.find? name = some t := by
      unfold TypeTable.find?
      rw [hget, ht]
    have hname : t.name = Text.upper name := by
      have hmem := List.mem_of_getLast? ht
      exact of_decide_eq_true (List.mem_filter.mp hmem).2
    rw [← hget] at ht ⊢
    have hupper_name := Text.upper_upper name
    obtain ⟨hnodup, hordered⟩ := hparents.lineage_methods hupper_name ht
    have hlisted : ts.methodsOf name =
        (ts.lineage t).foldl (fun known t => TypeTable.addMissing known t.methods) [] := by
      unfold TypeTable.methodsOf
      rw [hfind]
    refine ⟨⟨hlisted ▸ hnodup, fun method => ?_, hlisted ▸ hordered⟩, ?_⟩
    · rw [TypeTable.mem_methodsOf_iff hfind]
      constructor
      · rintro ⟨t', ht', hmethod⟩
        obtain ⟨k, hk⟩ := (hparents.mem_lineage hupper_name ht).mp ht'
        exact ⟨k, t', hk, hmethod⟩
      · rintro ⟨k, t', hk, hmethod⟩
        exact ⟨t', (hparents.mem_lineage hupper_name ht).mpr ⟨k, hk⟩, hmethod⟩
    · refine ⟨ts.freshFields t, TypeTable.instance?_eq hfind, ?_, fun field hfield v => ?_⟩
      · rw [← hname]
        exact Table.get?_insert_self _ _ _
      · exact hparents.get?_freshFields hupper_name ht hfield

/-- Two types in a circle, each with a field that the other one declares too, a third one that leads
into the circle, and one whose parent nobody has registered. -/
theorem inheritance_exact_circle :
    let types : List TypeInfo := [
      { name := "A", parent := some "B", fields := [("X", some "STRING"), ("X", some "INTEGER")],
        methods := ["M", "N", "M"] },
      { name := "B", parent := some "A", fields := [("X", none), ("Y", some "BOOL")],
        methods := ["O", "N"] },
      { name := "C", parent := some "A" },
      { name := "D", parent := some "NOWHERE" }]
    let ts := TypeTable.ofTypes types
    (∀ t ∈ types, ∀ parent ∈ t.parent, Text.upper parent = parent) ∧
    ts.isSubtype "d" "nowhere" = true ∧ ts.isSubtype "c" "b" = true ∧
    (ts.methodsOf "c").Nodup ∧ "O" ∈ ts.methodsOf "c" ∧
    ∃ fields, ts.instance? "c" = some (.map fields) ∧
      Table.get? fields "X" = some (.int 0) ∧ Table.get? fields "Y" = some (.bool false) := by
  intro types ts
  have hupper : ∀ t ∈ types, ∀ parent ∈ t.parent, Text.upper parent = parent := by decide
  obtain ⟨hsubtype, hregistered⟩ := inheritance_exact types hupper
  have hfirst : registered? types (Text.upper "c") = some { name := "C", parent := some "A" } := rfl
  obtain ⟨⟨hnodup, hlisted, -⟩, fields, hnew, -, hfields⟩ := hregistered "c" _ hfirst
  refine ⟨hupper, (hsubtype "d" "nowhere").mpr ⟨1, rfl⟩, (hsubtype "c" "b").mpr ⟨2, rfl⟩, hnodup,
    (hlisted "O").mpr ⟨2, _, rfl, by decide⟩, fields, hnew, ?_, ?_⟩
  · refine (hfields "X" (by decide) _).mpr ⟨1, some "INTEGER", ⟨rfl, ?_⟩, rfl⟩
    intro i hi
    obtain rfl : i = 0 := by omega
    rfl
  · refine (hfields "Y" (by decide) _).mpr ⟨2, some "BOOL", ⟨rfl, ?_⟩, rfl⟩
    intro i hi
    obtain rfl | rfl : i = 0 ∨ i = 1 := by omega
    · rfl
    · rfl

end BasicScript
