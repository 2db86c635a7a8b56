import BasicScript.Proofs.Effect

/-!
# Tables of variables are in order

A table is a list of entries, and as a list it could hold a name twice.  In an *ordered* table the
names ascend, so each of them is there once, and it makes no difference whether a table is searched
from the front or entered into another one entry by entry.

* `Table.Ordered` and `Table.get?_insertAll`: what is found after an ordered table has been entered
  into another one.
* `Chain.Ordered`: the tables of all scopes are ordered.
* `orderInvariant_sound`: every run keeps them so.
-/

namespace BasicScript

namespace Table

variable {α : Type} {t entries : Table α} {k : String} {v : α}

/-- The names ascend. -/
def Ordered (t : Table α) : Prop :=
  t.Pairwise (·.1 < ·.1)

theorem Ordered.nil : Ordered ([] : Table α) :=
  List.Pairwise.nil

/-- An insertion keeps a table in order. -/
theorem Ordered.insert (h : t.Ordered) (k : String) (v : α) : (Table.insert t k v).Ordered := by
  induction t with
  | nil => exact List.pairwise_singleton _ _
  | cons e rest ih =>
    obtain ⟨name, value⟩ := e
    obtain ⟨hname, hrest⟩ := List.pairwise_cons.mp h
    unfold Table.insert
    split
    · next heq =>
      subst heq
      exact List.pairwise_cons.mpr ⟨hname, hrest⟩
    · next hne =>
      split
      · next hlt =>
        refine List.pairwise_cons.mpr ⟨fun e he => ?_, h⟩
        rcases List.mem_cons.mp he with rfl | he
        · exact hlt
        · exact String.lt_trans hlt (hname e he)
      · next hnlt =>
        have hlt : name < k := Std.lt_of_le_of_ne hnlt hne
        refine List.pairwise_cons.mpr ⟨fun e he => ?_, ih hrest⟩
        rcases mem_of_mem_insert he with rfl | he
        · exact hlt
        · exact hname e he

/-- To enter what is there changes nothing. -/
theorem Ordered.insert_of_get? (h : t.Ordered) (hv : get? t k = some v) : Table.insert t k v = t := by
  induction t with
  | nil => cases hv
  | cons e rest ih =>
    obtain ⟨name, value⟩ := e
    obtain ⟨hname, hrest⟩ := List.pairwise_cons.mp h
    unfold get? at hv
    unfold Table.insert
    by_cases heq : name = k
    · rw [if_pos heq] at hv ⊢
      rw [heq, Option.some.inj hv]
    · rw [if_neg heq] at hv ⊢
      have hlt : name < k := hname _ (mem_of_get? hv)
      rw [if_neg (String.lt_asymm hlt), ih hrest hv]

/-- A key without an entry has no value. -/
theorem get?_of_not_mem (h : ∀ e ∈ t, e.1 ≠ k) : get? t k = none := by
  cases hget : get? t k with
  | none => rfl
  | some v => exact absurd rfl (h (k, v) (mem_of_get? hget))

/-- An ordered table that is entered into another one: its own values come first. -/
theorem get?_insertAll (h : entries.Ordered) (t : Table α) (k : String) :
    get? (insertAll t entries) k = (get? entries k).or (get? t k) := by
  induction entries generalizing t with
  | nil => rfl
  | cons e rest ih =>
    obtain ⟨name, value⟩ := e
    obtain ⟨hname, hrest⟩ := List.pairwise_cons.mp h
    have hstep : get? (insertAll t ((name, value) :: rest)) k =
        (get? rest k).or (get? (insert t name value) k) := ih hrest _
    rw [hstep]
    by_cases heq : name = k
    · subst heq
      -- The name does not come again.
      have hnone : get? rest name = none := by
        refine get?_of_not_mem fun e he heq => ?_
        have hlt := hname e he
        rw [heq] at hlt
        exact String.lt_irrefl name hlt
      rw [hnone, get?_insert_self]
      simp [get?]
    · rw [get?_insert_of_ne t value heq]
      simp [get?, heq]

/-- Insertions one after the other keep a table in order. -/
theorem Ordered.insertAll (h : t.Ordered) (entries : Table α) :
    (Table.insertAll t entries).Ordered := by
  induction entries generalizing t with
  | nil => exact h
  | cons e rest ih => exact ih (h.insert e.1 e.2)

end Table

/-! ## Scopes -/

/-- To bind the entries of a table is to enter them. -/
theorem Scope.vars_bindAll (s : Scope) (entries : Table Value) :
    (s.bindAll entries).vars = Table.insertAll s.vars entries := by
  unfold Scope.bindAll
  induction entries generalizing s with
  | nil => rfl
  | cons e rest ih => exact ih (s.bind e.1 e.2)

/-- A change of a scope keeps its variables in order. -/
theorem Scope.Write.ordered {ns : Names} {s s' : Scope} (h : s.Write ns s')
    (hs : s.vars.Ordered) : s'.vars.Ordered := by
  cases h with
  | write name v => exact hs.insert name v
  | bind name v => exact hs.insert name v
  | constant name v => exact hs.insert name v
  | declare => exact hs
  | mark => exact hs
  | explicit => exact hs

namespace Chain

/-- The tables of all scopes are ordered. -/
structure Ordered (c : Chain) : Prop where
  inner : ∀ s ∈ c.inner, s.vars.Ordered
  root : c.root.vars.Ordered

variable {ns : Names} {c c' : Chain}

/-- The scopes of a new machine are in order. -/
theorem Ordered.empty : ({} : Chain).Ordered :=
  ⟨fun _ hs => absurd hs List.not_mem_nil, .nil⟩

/-- A scope in order is opened. -/
theorem Ordered.push (h : c.Ordered) {s : Scope} (hs : s.vars.Ordered) : (c.push s).Ordered :=
  ⟨List.forall_mem_cons.mpr ⟨hs, h.inner⟩, h.root⟩

theorem Ordered.pop (h : c.Ordered) : c.pop.Ordered :=
  ⟨fun s hs => h.inner s (List.mem_of_mem_tail hs), h.root⟩

/-- One change keeps all scopes in order. -/
theorem Change.ordered (h : c.Change ns c') (hc : c.Ordered) : c'.Ordered := by
  induction h with
  | here write =>
    obtain ⟨hs, hrest⟩ := List.forall_mem_cons.mp hc.inner
    exact ⟨List.forall_mem_cons.mpr ⟨write.ordered hs, hrest⟩, hc.root⟩
  | outward block change ih =>
    obtain ⟨hs, hrest⟩ := List.forall_mem_cons.mp hc.inner
    have houtward := ih ⟨hrest, hc.root⟩
    exact ⟨List.forall_mem_cons.mpr ⟨hs, houtward.inner⟩, houtward.root⟩
  | root write => exact ⟨hc.inner, write.ordered hc.root⟩
  | redirect redirect =>
    refine ⟨hc.inner, ?_⟩
    cases redirect with
    | write name v => exact hc.root.insert name v
    | declare => exact hc.root

/-- Any number of changes keep all scopes in order. -/
theorem Changes.ordered (h : c.Changes ns c') (hc : c.Ordered) : c'.Ordered := by
  induction h with
  | refl => exact hc
  | tail _ change ih => exact change.ordered ih

/-- A binding keeps all scopes in order. -/
theorem Ordered.bind (h : c.Ordered) (name : String) (v : Value) : (c.bind name v).Ordered := by
  have bound : c.Change {} (c.bind name v) := change_modifyTop (.bind name v fun _ => rfl)
  exact bound.ordered h

end Chain

/-! ## Runs -/

/-- The tables of all scopes stay ordered. -/
def orderInvariant : Invariant where
  rule := ⟨fun _ _ => true⟩
  good _ m := m.chain.Ordered

/-- **Every run keeps the tables of all scopes ordered.** -/
theorem orderInvariant_sound (cx : Context) : orderInvariant.Sound cx := by
  -- All names may be marked GLOBAL here.
  have hmarked : ∀ c : Chain, Chain.Marked {} c.inner :=
    fun c => Chain.marked_of_all (fun _ => rfl) c.inner
  have moves : ∀ {l : Level} {m : Machine} {c : Chain}, m.chain.Changes {} c → m.chain.Ordered →
      orderInvariant.Moves l m { m with chain := c } :=
    fun h hm => ⟨h.ordered hm, trivial⟩
  exact {
    good_expr := id
    moves_of_expr := fun _ h => h
    good_stmt := id
    moves_of_same := fun hm hchain _ => ⟨show Chain.Ordered _ from hchain ▸ hm, trivial⟩
    bindItem := fun name v hm => ⟨Chain.Ordered.bind hm name v, trivial⟩
    bindEntry := fun name v hm => ⟨Chain.Ordered.bind hm name v, trivial⟩
    optionExplicit := fun _ _ hm => moves (.single (Chain.change_modifyTop .explicit)) hm
    addGlobal := fun _ _ _ _ _ hm => moves (Chain.changes_addGlobal rfl) hm
    define := fun name v hm => moves (Chain.changes_define name v (hmarked _)) hm
    set := fun _ _ hm hc => moves (.single (Chain.change_set (hmarked _) hc)) hm
    defineLocal := fun _ _ hm hc => moves (.single (Chain.change_defineLocal hc)) hm
    defineConst := fun _ _ hm hc => moves (.single (Chain.change_defineConst hc)) hm
    bindCaught := fun _ x e _ hm => ⟨Chain.Ordered.bind hm x.name e.toValue, trivial⟩
    openBlock := fun hm => Chain.Ordered.push hm Table.Ordered.nil
    closeBlock := fun _ _ h => ⟨Chain.Ordered.pop h.1, trivial⟩
    openResource := fun name v hm => Chain.Ordered.push hm (Table.Ordered.nil.insert name v)
    closeResource := fun _ _ _ _ h => ⟨Chain.Ordered.pop h.1, trivial⟩
    openFrame := fun hm _ => Chain.Ordered.push hm Table.Ordered.nil
    closeFrame := fun _ _ _ h => ⟨Chain.Ordered.pop h.1, trivial⟩
    openLambda := by
      intro m bindings hm _
      have hchain : m.chain.Ordered := hm
      refine ⟨List.forall_mem_singleton.mpr ?_, hchain.root⟩
      rw [Scope.vars_bindAll]
      exact Table.Ordered.nil.insertAll bindings
    closeLambda := by
      intro m m₁ m₂ bindings hm _ _ h
      have hcaller : m.chain.Ordered := hm
      have hchain : m₂.chain.Ordered := h.1
      exact ⟨⟨hcaller.inner, hchain.root⟩, trivial⟩
  }

end BasicScript
