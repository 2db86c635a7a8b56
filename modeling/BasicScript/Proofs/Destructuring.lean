import BasicScript.Proofs.Assignment
import BasicScript.Proofs.Frame
import Mathlib.Data.List.Forall2

/-!
# Destructuring

A destructuring statement declares its names one after the other, in the scope where it stands.  A
map gives every name the field that the name finds, or the empty value if it finds none.  An array
gives its items in turn and stops where the shorter of the two lists ends: a name beyond the last
item is not declared, and goes on to stand for whatever it stood for before.

* `Chain.Definable`: neither a constant nor OPTION EXPLICIT forbids a name to be declared.
* `Chain.SameBut`: the scopes are the same but for the variables and declarations of some names, so
  that no read of another name sees a difference.
* `defineAll_of_definable`: what a list of declarations does.
* `Chain.SpreadItems`, `Chain.SpreadFields`: what names read after an array or a map was spread.
* `destructuring_binds_unless_beyond_items` is the main statement, and
  `destructuring_leaves_stale_value` a name that keeps an old value.
-/

namespace BasicScript

namespace Scope

variable {names : String → Bool} {s s' : Scope} {x : String}

/-- Any other name is bound as before. -/
theorem SameBut.contains_eq (h : s.SameBut names s') (hx : names x = false) :
    Table.contains s'.vars x = Table.contains s.vars x :=
  congrArg Option.isSome (h.vars x hx)

/-- Any other name is known as before. -/
theorem SameBut.knows_eq (h : s.SameBut names s') (hx : names x = false) :
    s'.knows x = s.knows x := by
  unfold knows
  rw [h.contains_eq hx, decide_eq_decide.mpr (h.declared x hx)]

end Scope

namespace Chain

/-! ## Names that can be declared -/

/-- No constant that can be seen has the name; and if OPTION EXPLICIT is in force and the innermost
scope marks the name GLOBAL, then the root knows it. -/
structure Definable (c : Chain) (name : String) : Prop where
  isConst : c.isConst name = false
  known : c.top.strict = true → name ∈ c.top.globals → c.root.knows name = true

instance (c : Chain) (name : String) : Decidable (c.Definable name) :=
  decidable_of_iff (c.isConst name = false ∧
      (c.top.strict = true → name ∈ c.top.globals → c.root.knows name = true))
    ⟨fun h => ⟨h.1, h.2⟩, fun h => ⟨h.isConst, h.known⟩⟩

/-! ## Scopes that differ in some names -/

/-- The scopes of two chains are the same, but for the variables and the declarations of some
names. -/
structure SameBut (names : String → Bool) (c c' : Chain) : Prop where
  inner : List.Forall₂ (Scope.SameBut names) c.inner c'.inner
  root : c.root.SameBut names c'.root

section SameBut

variable {names : String → Bool} {c c' : Chain} {x name : String}

theorem SameBut.refl (c : Chain) : c.SameBut names c :=
  ⟨List.forall₂_same.mpr fun s _ => .refl s, .refl c.root⟩

/-- A change of the innermost scope that spares all other names spares them in the chain. -/
theorem SameBut.modifyTop {f : Scope → Scope} (c : Chain)
    (hf : ∀ s : Scope, s.SameBut names (f s)) : c.SameBut names (c.modifyTop f) := by
  obtain ⟨_ | ⟨s, rest⟩, root⟩ := c
  · exact ⟨.nil, hf root⟩
  · exact ⟨.cons (hf s) (SameBut.refl ⟨rest, root⟩).inner, .refl root⟩

/-- A declaration changes one name at most, even if it fails. -/
theorem sameBut_define (c : Chain) (name : String) (v : Value) :
    c.SameBut (name == ·) (c.define name v).1 := by
  have hdeclare : c.SameBut (name == ·) (c.modifyTop (·.declare name)) :=
    .modifyTop c fun s => Scope.sameBut_declare s name
  unfold define
  split
  · exact .refl c
  split
  · dsimp only
    split
    · next root hroot =>
      obtain ⟨-, rfl⟩ := setRoot_eq_ok hroot
      exact ⟨hdeclare.inner, hdeclare.root.trans (Scope.sameBut_write _ name v)⟩
    · exact hdeclare
  · exact .modifyTop c fun s => (Scope.sameBut_declare s name).trans (Scope.sameBut_write _ name v)

variable (h : c.SameBut names c') (hx : names x = false)
include h

/-- The innermost scope is the same but for those names. -/
theorem SameBut.top : c.top.SameBut names c'.top := by
  obtain ⟨inner, root⟩ := c
  obtain ⟨inner', root'⟩ := c'
  cases h.inner with
  | nil => exact h.root
  | cons hs hrest => exact hs

include hx

/-- Any other name has the value it had. -/
theorem SameBut.lookup?_eq : c'.lookup? x = c.lookup? x := by
  have hlist : ∀ {ss ss' : List Scope}, List.Forall₂ (Scope.SameBut names) ss ss' →
      lookupIn c'.root x ss' = lookupIn c.root x ss := by
    intro ss ss' hss
    induction hss with
    | nil => exact h.root.vars x hx
    | cons hs _ ih =>
      unfold lookupIn
      rw [hs.globals, hs.vars x hx, h.root.vars x hx, ih]
  exact hlist h.inner

/-- Any other name is a constant as before. -/
theorem SameBut.isConst_eq : c'.isConst x = c.isConst x := by
  have hlist : ∀ {ss ss' : List Scope}, List.Forall₂ (Scope.SameBut names) ss ss' →
      isConstIn c'.root x ss' = isConstIn c.root x ss := by
    intro ss ss' hss
    induction hss with
    | nil =>
      unfold isConstIn
      rw [h.root.consts]
    | cons hs _ ih =>
      unfold isConstIn
      rw [hs.globals, hs.consts, hs.contains_eq hx, h.root.consts, ih]
  exact hlist h.inner

/-- Any other name is declared as before. -/
theorem SameBut.isDeclared_eq : c'.isDeclared x = c.isDeclared x := by
  have hlist : ∀ {ss ss' : List Scope}, List.Forall₂ (Scope.SameBut names) ss ss' →
      ss'.any (·.knows x) = ss.any (·.knows x) := by
    intro ss ss' hss
    induction hss with
    | nil => rfl
    | cons hs _ ih => rw [List.any_cons, List.any_cons, hs.knows_eq hx, ih]
  unfold isDeclared
  rw [hlist h.inner, h.root.knows_eq hx]

/-- A read of another name sees no difference. -/
theorem SameBut.get_eq : c'.get x = c.get x := by
  unfold get
  rw [h.lookup?_eq hx, h.isDeclared_eq hx, h.top.strict]

/-- Any other name can be defined as before. -/
theorem SameBut.definable (hfree : c.Definable x) : c'.Definable x where
  isConst := (h.isConst_eq hx).trans hfree.isConst
  known := by
    rw [h.top.strict, h.top.globals, h.root.knows_eq hx]
    exact hfree.known

end SameBut

/-! ## One declaration -/

/-- A declaration that nothing forbids succeeds. -/
theorem define_of_definable {c : Chain} {name : String} (h : c.Definable name) (v : Value) :
    ∃ c', c.define name v = (c', .ok ()) := by
  obtain ⟨hconst, hknown⟩ := h
  unfold define
  rw [if_neg (Bool.eq_false_iff.mp hconst)]
  by_cases hmark : name ∈ c.top.globals
  · rw [if_pos hmark]
    obtain ⟨_ | ⟨s, rest⟩, root⟩ := c
    · -- The root has declared the name by the time when it is written.
      have hfresh : name ∉ (root.declare name).consts := of_decide_eq_false hconst
      have hknows : (root.declare name).knows name = true := by
        simp [Scope.knows, Scope.declare, Scope.mem_addName]
      dsimp only [modifyTop, top, List.headD_nil]
      rw [setRoot_of_known hfresh (fun _ => hknows)]
      exact ⟨_, rfl⟩
    · have hfresh : name ∉ root.consts :=
        of_decide_eq_false ((isConst_of_marked hmark).symm.trans hconst)
      have hroot : setRoot root s.strict name v = .ok (root.write name v) :=
        setRoot_of_known hfresh (fun hstrict => hknown hstrict hmark) v
      dsimp only [modifyTop, top, List.headD_cons, Scope.declare]
      rw [hroot]
      exact ⟨_, rfl⟩
  · rw [if_neg hmark]
    exact ⟨_, rfl⟩

end Chain

/-! ## Declarations one after the other -/

/-- A list of declarations of different names, none of which is forbidden, succeeds.  Every name has
its value afterwards, and a read of any other name sees no difference. -/
theorem defineAll_of_definable (entries : List (Ident × Value)) {m : Machine}
    (hdistinct : (entries.map (·.1)).Nodup)
    (hfree : ∀ entry ∈ entries, m.chain.Definable entry.1.name) :
    ∃ c, defineAll entries m = .ok () { m with chain := c } ∧
      (∀ entry ∈ entries, c.lookup? entry.1.name = some entry.2) ∧
      ∀ y, (∀ entry ∈ entries, entry.1.name ≠ y) →
        c.lookup? y = m.chain.lookup? y ∧ c.get y = m.chain.get y := by
  induction entries generalizing m with
  | nil => exact ⟨m.chain, rfl, nofun, fun _ _ => ⟨rfl, rfl⟩⟩
  | cons entry rest ih =>
    obtain ⟨name, v⟩ := entry
    obtain ⟨hfresh, hdistinct⟩ := List.nodup_cons.mp hdistinct
    obtain ⟨hfirst, hrest⟩ := List.forall_mem_cons.mp hfree
    obtain ⟨c₁, hdefine⟩ := Chain.define_of_definable hfirst v
    have hsame : m.chain.SameBut (name.name == ·) c₁ := by
      have hafter := Chain.sameBut_define m.chain name.name v
      rwa [hdefine] at hafter
    have hapart : ∀ entry ∈ rest, name.name ≠ entry.1.name := by
      intro entry hentry heq
      have hmem : entry.1 ∈ rest.map (·.1) := List.mem_map_of_mem hentry
      exact hfresh (Ident.ext heq ▸ hmem)
    have hrest₁ : ∀ entry ∈ rest, c₁.Definable entry.1.name := fun entry hentry =>
      hsame.definable (beq_false_of_ne (hapart entry hentry)) (hrest entry hentry)
    obtain ⟨c, hall, hbound, hkept⟩ := ih (m := { m with chain := c₁ }) hdistinct hrest₁
    refine ⟨c, ?_, ?_, fun y hy => ?_⟩
    · show (Run.define name.name v >>= fun _ => defineAll rest) m = _
      rw [Run.bind_of_ok (Run.define_of_ok hdefine), hall]
    · refine List.forall_mem_cons.mpr ⟨?_, hbound⟩
      -- No later declaration has the first name.
      have hlater := (hkept name.name fun entry hentry => (hapart entry hentry).symm).1
      exact hlater.trans (Chain.define_eq_ok hdefine).2
    · obtain ⟨hne, hy⟩ := List.forall_mem_cons.mp hy
      have hname : (name.name == y) = false := beq_false_of_ne hne
      obtain ⟨hlookup, hget⟩ := hkept y hy
      exact ⟨hlookup.trans (hsame.lookup?_eq hname), hget.trans (hsame.get_eq hname)⟩

/-! ## Arrays and maps -/

/-- What names read after the items of an array were spread over some of them: the name at the place
of an item reads that item, and all other names, those beyond the last item among them, read what
they read before. -/
structure Chain.SpreadItems (names : List Ident) (items : List Value) (c c' : Chain) : Prop where
  bound : ∀ (i : Nat) (x : Ident) (item : Value), names[i]? = some x → items[i]? = some item →
    c'.get x.name = .ok item
  beyond : ∀ (i : Nat) (x : Ident), names[i]? = some x → items.length ≤ i →
    c'.get x.name = c.get x.name
  others : ∀ y, (∀ x ∈ names, x.name ≠ y) → c'.get y = c.get y

/-- What names read after the fields of a map were spread over some of them: each of these the field
that it finds, or the empty value, and all other names what they read before. -/
structure Chain.SpreadFields (names : List Ident) (fields : Table Value) (c c' : Chain) : Prop where
  bound : ∀ x ∈ names, c'.get x.name = .ok ((Value.lookup? fields x.name).getD .nil)
  others : ∀ y, (∀ x ∈ names, x.name ≠ y) → c'.get y = c.get y

/-- The documented outcome of an array, in which a name without an item reads the empty value, is
the actual one exactly if the names beyond the last item read the empty value before. -/
theorem Chain.SpreadItems.padded_iff {names : List Ident} {items : List Value} {c c' : Chain}
    (h : SpreadItems names items c c') :
    (∀ (i : Nat) (x : Ident), names[i]? = some x → c'.get x.name = .ok (items[i]?.getD .nil)) ↔
      ∀ (i : Nat) (x : Ident), names[i]? = some x → items.length ≤ i → c.get x.name = .ok .nil := by
  refine ⟨fun hpadded i x hx hbeyond => ?_, fun hnil i x hx => ?_⟩
  · rw [← h.beyond i x hx hbeyond, hpadded i x hx, List.getElem?_eq_none hbeyond]
    rfl
  · cases hitem : items[i]? with
    | some item => exact h.bound i x item hx hitem
    | none =>
      have hbeyond : items.length ≤ i := List.getElem?_eq_none_iff.mp hitem
      exact (h.beyond i x hx hbeyond).trans (hnil i x hx hbeyond)

section Spread

variable {names : List Ident} {m : Machine} (hdistinct : names.Nodup)
  (hfree : ∀ x ∈ names, m.chain.Definable x.name)
include hdistinct hfree

/-- An array is taken apart name by name, as far as it goes. -/
theorem destructure_array (items : List Value) :
    ∃ c, destructure names (.array items) m = .ok () { m with chain := c } ∧
      m.chain.SpreadItems names items c := by
  have hfirst : (names.zip items).map (·.1) =
      names.take (min names.length items.length) := by
    rw [List.zip_eq_zip_take_min, List.map_fst_zip (by simp)]
  have hentries : ((names.zip items).map (·.1)).Nodup := by
    rw [hfirst]
    exact hdistinct.sublist (List.take_sublist _ _)
  have hplace : ∀ entry ∈ names.zip items, ∃ i : Nat, names[i]? = some entry.1 ∧
      items[i]? = some entry.2 := by
    intro entry hentry
    obtain ⟨i, hi⟩ := List.mem_iff_getElem?.mp hentry
    exact ⟨i, List.getElem?_zip_eq_some.mp hi⟩
  have hmem : ∀ entry ∈ names.zip items, entry.1 ∈ names := by
    intro entry hentry
    obtain ⟨i, hname, -⟩ := hplace entry hentry
    exact List.mem_of_getElem? hname
  obtain ⟨c, hall, hbound, hkept⟩ := defineAll_of_definable (names.zip items) hentries
    fun entry hentry => hfree _ (hmem entry hentry)
  refine ⟨c, hall, ?_, ?_, ?_⟩
  · intro i x item hx hitem
    have hentry : (x, item) ∈ names.zip items :=
      List.mem_iff_getElem?.mpr ⟨i, List.getElem?_zip_eq_some.mpr ⟨hx, hitem⟩⟩
    exact Chain.get_of_lookup? (hbound _ hentry)
  · intro i x hx hbeyond
    refine (hkept x.name fun entry hentry heq => ?_).2
    -- The name has one place only, and no item is there.
    obtain ⟨j, hj, hitem⟩ := hplace entry hentry
    have hlt : j < names.length := (List.getElem?_eq_some_iff.mp hj).1
    have hji : j = i := (List.getElem?_inj hlt hdistinct).mp (by rw [hj, hx, Ident.ext heq])
    rw [List.getElem?_eq_none (hji ▸ hbeyond)] at hitem
    cases hitem
  · intro y hy
    exact (hkept y fun entry hentry => hy _ (hmem entry hentry)).2

/-- A map is taken apart name by name, and what it lacks is nothing. -/
theorem destructure_map (fields : Table Value) :
    ∃ c, destructure names (.map fields) m = .ok () { m with chain := c } ∧
      m.chain.SpreadFields names fields c := by
  let entries := names.map fun x => (x, (Value.lookup? fields x.name).getD .nil)
  have hnames : entries.map (·.1) = names := by
    rw [List.map_map]
    exact List.map_id names
  have hmem : ∀ entry ∈ entries, entry.1 ∈ names := by
    intro entry hentry
    rw [← hnames]
    exact List.mem_map_of_mem hentry
  obtain ⟨c, hall, hbound, hkept⟩ := defineAll_of_definable entries (hnames ▸ hdistinct)
    fun entry hentry => hfree _ (hmem entry hentry)
  refine ⟨c, hall, fun x hx => ?_, fun y hy => ?_⟩
  · exact Chain.get_of_lookup? (hbound _ (List.mem_map_of_mem hx))
  · exact (hkept y fun entry hentry => hy _ (hmem entry hentry)).2

end Spread

/-- **Destructuring binds all names but those beyond the last item of an array.**  Let the value of
a destructuring statement be an array or a map, in any scopes, and let its names be pairwise distinct
and none of them forbidden, by a constant or by OPTION EXPLICIT.  Then the statement succeeds and
changes nothing but the scopes.  After a map every name reads the field that it finds, or the empty
value.  After an array the names at the places of its items read these items.  A name beyond the
last item reads what it read before, or fails as it failed before; so all names read an item or the
empty value exactly if those beyond the last item read the empty value before.  No other name reads
anything new. -/
theorem destructuring_binds_unless_beyond_items (cx : Context) (n : Nat) (m m₁ : Machine)
    (names : List Ident) (e : Expr) (v : Value) (hvalue : (engine cx n).eval e m = .ok v m₁)
    (hdistinct : names.Nodup) (hfree : ∀ x ∈ names, m₁.chain.Definable x.name) :
    (∀ fields, v = .map fields → ∃ c,
      exec cx (n + 1) (.destructure names e) m = .ok .normal { m₁ with chain := c } ∧
      m₁.chain.SpreadFields names fields c) ∧
    (∀ items, v = .array items → ∃ c,
      exec cx (n + 1) (.destructure names e) m = .ok .normal { m₁ with chain := c } ∧
      m₁.chain.SpreadItems names items c ∧
      ((∀ (i : Nat) (x : Ident), names[i]? = some x →
          c.get x.name = .ok (items[i]?.getD .nil)) ↔
        ∀ (i : Nat) (x : Ident), names[i]? = some x → items.length ≤ i →
          m₁.chain.get x.name = .ok .nil)) := by
  have hexec : ∀ c, destructure names v m₁ = .ok () { m₁ with chain := c } →
      exec cx (n + 1) (.destructure names e) m = .ok .normal { m₁ with chain := c } := by
    intro c hspread
    show Run.surface (Run.normally ((engine cx n).eval e >>= destructure names)) m = _
    unfold Run.surface Run.normally
    rw [Run.bind_of_ok ((Run.bind_of_ok hvalue).trans hspread)]
    rfl
  refine ⟨?_, ?_⟩
  · rintro fields rfl
    obtain ⟨c, hspread, hreads⟩ := destructure_map hdistinct hfree fields
    exact ⟨c, hexec c hspread, hreads⟩
  · rintro items rfl
    obtain ⟨c, hspread, hreads⟩ := destructure_array hdistinct hfree items
    exact ⟨c, hexec c hspread, hreads, hreads.padded_iff⟩

/-- Under OPTION EXPLICIT, in a frame that has marked the second name GLOBAL and binds the third. -/
theorem destructuring_binds_unless_beyond_items_strict :
    let names := [Ident.ofString "A", Ident.ofString "G", Ident.ofString "B"]
    let frame : Scope := { vars := [("B", .int 5)], globals := ["G"], strict := true }
    let m : Machine := { chain := ⟨[frame], { vars := [("G", .int 0)] }⟩ }
    let items : List Value := [.int 1, .int 2]
    let fields : Table Value := [("A", .int 7)]
    names.Nodup ∧ (∀ x ∈ names, m.chain.Definable x.name) ∧
    (∃ c, exec {} 4 (.destructure names (.array [.int 1, .int 2])) m =
        .ok .normal { m with chain := c } ∧ m.chain.SpreadItems names items c) ∧
    ∃ c, exec {} 4 (.destructure names (.map [(.str "A", .int 7)])) m =
        .ok .normal { m with chain := c } ∧ m.chain.SpreadFields names fields c := by
  intro names frame m items fields
  have hdistinct : names.Nodup := by decide
  have hfree : ∀ x ∈ names, m.chain.Definable x.name := by decide
  have harray : (engine {} 3).eval (.array [.int 1, .int 2]) m = .ok (.array items) m := rfl
  have hmap : (engine {} 3).eval (.map [(.str "A", .int 7)]) m = .ok (.map fields) m := rfl
  obtain ⟨c, hexec, hreads, -⟩ :=
    (destructuring_binds_unless_beyond_items {} 3 m m names _ _ harray hdistinct hfree).2 items rfl
  have spread := destructuring_binds_unless_beyond_items {} 3 m m names _ _ hmap hdistinct hfree
  exact ⟨hdistinct, hfree, ⟨c, hexec, hreads⟩, spread.1 fields rfl⟩

/-- A name without an item keeps the value that it had; and under OPTION EXPLICIT, if it had none,
it stays undeclared. -/
theorem destructuring_leaves_stale_value :
    let names := [Ident.ofString "A", Ident.ofString "B"]
    let s : Stmt := .destructure names (.array [.int 1])
    let bound : Machine := { chain := ⟨[], { vars := [("B", .int 5)] }⟩ }
    let strict : Machine := { chain := ⟨[], { strict := true }⟩ }
    (∃ m, exec {} 4 s bound = .ok .normal m ∧ m.chain.get "B" = .ok (.int 5)) ∧
    ∃ m, exec {} 4 s strict = .ok .normal m ∧
      m.chain.get "B" = .error (.undeclaredVariable "B") :=
  ⟨⟨_, rfl, rfl⟩, ⟨_, rfl, rfl⟩⟩

end BasicScript
