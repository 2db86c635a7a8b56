import BasicScript.Proofs.Invariant
import Mathlib.Logic.Relation

/-!
# What runs do to scopes

All that a run does to the scopes is put together from few elementary changes.  A scope up to the
nearest frame may be written, the root may be written through a name that is marked GLOBAL, and
nothing else happens to any scope that is not closed in the meantime.  This file says so once, for
every computation; statements about frames and about constants are read off from it.

* `Scope.Write`: an elementary change of a scope that is within reach.
* `Scope.Redirect`: an elementary change of the root through a GLOBAL mark.
* `Chain.Change`: one of these, somewhere in a chain.
* `effectInvariant`: a statement is a sequence of such changes, and an expression changes nothing
  but the root, and that through GLOBAL marks alone.

The names that code may mark GLOBAL and the names of the variables of its CATCHes are parameters.
-/

namespace BasicScript

/-- The names that GLOBAL statements and CATCHes of some code may use. -/
structure Names where
  /-- May be marked GLOBAL. -/
  marked : String → Bool := fun _ => true
  /-- May be the variable of a CATCH. -/
  caught : String → Bool := fun _ => true

/-- Code uses only some names in its GLOBAL statements and CATCHes. -/
def Names.rule (ns : Names) : Rule where
  allows _
    | .globals names => names.all fun n => ns.marked n.name
    | .attempt (some x) => ns.caught x.name
    | _ => true

/-! ## Elementary changes -/

/-- An elementary change of a scope.  A constant is written only as the variable of a CATCH. -/
inductive Scope.Write (ns : Names) (s : Scope) : Scope → Prop where
  | write (name : String) (v : Value) (fresh : name ∉ s.consts) : Write ns s (s.write name v)
  | bind (name : String) (v : Value) (fresh : name ∈ s.consts → ns.caught name) :
    Write ns s (s.bind name v)
  | constant (name : String) (v : Value) (fresh : name ∉ s.consts) :
    Write ns s ({ s with consts := Scope.addName s.consts name }.bind name v)
  | declare (name : String) : Write ns s (s.declare name)
  | mark (name : String) (marked : ns.marked name) :
    Write ns s { s with globals := Scope.addName s.globals name }
  | explicit : Write ns s { s with strict := true }

/-- An elementary change of the root through a name that is marked GLOBAL. -/
inductive Scope.Redirect (ns : Names) (s : Scope) : Scope → Prop where
  | write (name : String) (v : Value) (marked : ns.marked name) (fresh : name ∉ s.consts) :
    Redirect ns s (s.write name v)
  | declare (name : String) (marked : ns.marked name) : Redirect ns s (s.declare name)

namespace Chain

/-- An elementary change in a chain: of a scope up to the nearest frame, or of the root through a
GLOBAL mark. -/
inductive Change (ns : Names) : Chain → Chain → Prop where
  | here {s s' : Scope} {rest : List Scope} {root : Scope} (write : s.Write ns s') :
    Change ns ⟨s :: rest, root⟩ ⟨s' :: rest, root⟩
  | outward {s : Scope} {rest rest' : List Scope} {root root' : Scope} (block : s.frame = false)
    (change : Change ns ⟨rest, root⟩ ⟨rest', root'⟩) :
    Change ns ⟨s :: rest, root⟩ ⟨s :: rest', root'⟩
  | root {root root' : Scope} (write : root.Write ns root') : Change ns ⟨[], root⟩ ⟨[], root'⟩
  | redirect {inner : List Scope} {root root' : Scope} (redirect : root.Redirect ns root') :
    Change ns ⟨inner, root⟩ ⟨inner, root'⟩

/-- Any number of changes in a chain. -/
abbrev Changes (ns : Names) : Chain → Chain → Prop :=
  Relation.ReflTransGen (Change ns)

/-- The scopes up to the nearest frame have no GLOBAL marks but those of some names. -/
def Marked (ns : Names) : List Scope → Prop
  | [] => True
  | s :: rest => (∀ name ∈ s.globals, ns.marked name) ∧ (s.frame = false → Marked ns rest)

end Chain

/-! ## Writes are sequences of elementary changes -/

namespace Scope

variable {ns : Names} {s s' : Scope}

/-- A change of a scope leaves it a frame or a block. -/
theorem Write.frame_eq (h : s.Write ns s') : s'.frame = s.frame := by
  cases h <;> rfl

/-- The names after one has been added. -/
theorem mem_addName {names : List String} {name x : String} :
    x ∈ addName names name ↔ x = name ∨ x ∈ names := by
  unfold addName
  split
  · next hmem =>
    constructor
    · exact Or.inr
    · rintro (rfl | h)
      · exact hmem
      · exact h
  · exact List.mem_cons

/-- A change of a scope marks only some names GLOBAL. -/
theorem Write.marked_of (h : s.Write ns s') (hs : ∀ name ∈ s.globals, ns.marked name) :
    ∀ name ∈ s'.globals, ns.marked name := by
  cases h with
  | mark name marked =>
    intro x hx
    rcases mem_addName.mp hx with rfl | hx
    · exact marked
    · exact hs x hx
  | _ => exact hs

end Scope

namespace Chain

variable {ns : Names} {c c' : Chain}

/-- GLOBAL marks within reach stay within the names of the code. -/
theorem Change.marked (h : c.Change ns c') (hc : Marked ns c.inner) : Marked ns c'.inner := by
  induction h with
  | here write => exact ⟨write.marked_of hc.1, fun hblock => hc.2 (write.frame_eq ▸ hblock)⟩
  | outward block change ih => exact ⟨hc.1, fun hblock => ih (hc.2 hblock)⟩
  | root write => exact hc
  | redirect => exact hc

/-- Changes leave no GLOBAL marks but those of some names. -/
theorem Changes.marked (h : c.Changes ns c') (hc : Marked ns c.inner) : Marked ns c'.inner := by
  induction h with
  | refl => exact hc
  | tail _ change ih => exact change.marked ih

/-- A write of the root that succeeds. -/
theorem setRoot_eq_ok {root root' : Scope} {strict : Bool} {name : String} {v : Value}
    (h : setRoot root strict name v = .ok root') :
    name ∉ root.consts ∧ root' = root.write name v := by
  unfold setRoot at h
  split at h
  · cases h
  · next hfresh =>
    split at h
    · cases h
    · cases h
      exact ⟨hfresh, rfl⟩

/-- A write of the root through a mark in the innermost scope, be that the root itself or not. -/
theorem change_setRoot {strict : Bool} {name : String} {v : Value} {root' : Scope}
    (hc : Marked ns c.inner) (hmark : name ∈ c.top.globals)
    (h : setRoot c.root strict name v = .ok root') : c.Change ns { c with root := root' } := by
  obtain ⟨hfresh, rfl⟩ := setRoot_eq_ok h
  obtain ⟨_ | ⟨s, rest⟩, root⟩ := c
  · exact .root (.write name v hfresh)
  · exact .redirect (.write name v (hc.1 name hmark) hfresh)

/-- A change of the innermost scope is a change in the chain. -/
theorem change_modifyTop {f : Scope → Scope} (h : c.top.Write ns (f c.top)) :
    c.Change ns (c.modifyTop f) := by
  obtain ⟨_ | ⟨s, rest⟩, root⟩ := c
  · exact .root h
  · exact .here h

/-- What a write that was changed afterwards has written. -/
theorem ok_of_map_eq_ok {α β : Type} {f : α → β} {r : Except Failure α} {b : β}
    (h : r.map f = .ok b) : ∃ a, r = .ok a ∧ b = f a := by
  cases r with
  | error e => cases h
  | ok a =>
    cases h
    exact ⟨a, rfl, rfl⟩

/-- A plain assignment.  It follows the search for a constant, so it meets none. -/
theorem change_assignIn {root : Scope} {name : String} {v : Value} {inner : List Scope}
    (hc : Marked ns inner) (hconst : isConstIn root name inner = false)
    (h : assignIn root name v inner = .ok c') : Change ns ⟨inner, root⟩ c' := by
  induction inner generalizing c' with
  | nil =>
    have hfresh : name ∉ root.consts := by simpa [isConstIn] using hconst
    unfold assignIn at h
    split at h
    · obtain ⟨root', hroot, rfl⟩ := ok_of_map_eq_ok h
      obtain ⟨-, rfl⟩ := setRoot_eq_ok hroot
      exact .root (.write name v hfresh)
    · cases h
      exact .root (.write name v hfresh)
  | cons s rest ih =>
    unfold assignIn at h
    unfold isConstIn at hconst
    by_cases hmark : name ∈ s.globals
    · rw [if_pos hmark] at h
      obtain ⟨root', hroot, rfl⟩ := ok_of_map_eq_ok h
      obtain ⟨hfresh, rfl⟩ := setRoot_eq_ok hroot
      exact .redirect (.write name v (hc.1 name hmark) hfresh)
    rw [if_neg hmark] at h hconst
    have hfresh : name ∉ s.consts := by
      intro hmem
      rw [if_pos hmem] at hconst
      cases hconst
    split at h
    · cases h
      exact .here (.write name v hfresh)
    · next hpassed =>
      simp only [Bool.or_eq_true, not_or, Bool.not_eq_true] at hpassed
      rw [if_neg hfresh, if_neg (by rw [hpassed.1.1]; exact Bool.false_ne_true)] at hconst
      obtain ⟨⟨rest', root'⟩, hrest, rfl⟩ := ok_of_map_eq_ok h
      exact .outward hpassed.1.2 (ih (hc.2 hpassed.1.2) hconst hrest)

/-- An assignment to a variable. -/
theorem change_set {name : String} {v : Value} (hc : Marked ns c.inner)
    (h : c.set name v = .ok c') : c.Change ns c' := by
  unfold set at h
  split at h
  · next hmark =>
    obtain ⟨root', hroot, rfl⟩ := ok_of_map_eq_ok h
    exact change_setRoot hc hmark hroot
  split at h
  · cases h
  next hconst =>
  split at h
  · cases h
  exact change_assignIn hc (Bool.not_eq_true _ ▸ hconst) h

/-- What is no constant and not marked GLOBAL is no constant of the innermost scope. -/
theorem not_mem_top_consts {name : String} (hconst : c.isConst name = false)
    (hmark : name ∉ c.top.globals) : name ∉ c.top.consts := by
  obtain ⟨_ | ⟨s, rest⟩, root⟩ := c
  · exact of_decide_eq_false hconst
  · intro hmem
    change isConstIn root name (s :: rest) = false at hconst
    unfold isConstIn at hconst
    have hmark' : name ∉ s.globals := hmark
    have hmem' : name ∈ s.consts := hmem
    rw [if_neg hmark', if_pos hmem'] at hconst
    cases hconst

/-- The innermost scope after a name has been declared there. -/
theorem modifyTop_declare_top (c : Chain) (name : String) :
    (c.modifyTop (·.declare name)).top = c.top.declare name := by
  obtain ⟨_ | ⟨s, rest⟩, root⟩ := c <;> rfl

/-- The declaration of a variable, also one that fails. -/
theorem changes_define (name : String) (v : Value) (hc : Marked ns c.inner) :
    c.Changes ns (c.define name v).1 := by
  unfold define
  split
  · exact .refl
  next hconst =>
  rw [Bool.not_eq_true] at hconst
  split
  · next hmark =>
    have declared : c.Change ns (c.modifyTop (·.declare name)) := change_modifyTop (.declare name)
    dsimp only
    split
    · next root' hroot =>
      have hmark' : name ∈ (c.modifyTop (·.declare name)).top.globals := by
        rw [modifyTop_declare_top]
        exact hmark
      exact (Relation.ReflTransGen.single declared).tail
        (change_setRoot (declared.marked hc) hmark' hroot)
    · exact .single declared
  · next hmark =>
    have hfresh := not_mem_top_consts hconst hmark
    have bound : c.Change ns (c.bind name v) :=
      change_modifyTop (.bind name v fun hmem => (hfresh hmem).elim)
    exact .single bound

/-- A LOCAL that succeeds is one change. -/
theorem change_defineLocal {name : String} {v : Value} (h : c.defineLocal name v = .ok c') :
    c.Change ns c' := by
  unfold defineLocal at h
  split at h
  · cases h
  next hfresh =>
  cases h
  exact change_modifyTop (.bind name v fun hmem => (hfresh hmem).elim)

/-- A CONST that succeeds is one change. -/
theorem change_defineConst {name : String} {v : Value} (h : c.defineConst name v = .ok c') :
    c.Change ns c' := by
  unfold defineConst at h
  split at h
  · cases h
  next hfresh =>
  cases h
  exact change_modifyTop (.constant name v hfresh)

/-- A GLOBAL mark, which under OPTION EXPLICIT declares the name in the root. -/
theorem changes_addGlobal {name : String} (hmarked : ns.marked name) :
    c.Changes ns (c.addGlobal name) := by
  have mark : c.Change ns
      (c.modifyTop fun s => { s with globals := Scope.addName s.globals name }) :=
    change_modifyTop (.mark name hmarked)
  unfold addGlobal
  dsimp only
  split
  · exact (Relation.ReflTransGen.single mark).tail (.redirect (.declare name hmarked))
  · exact .single mark

/-! ## Opening and closing scopes -/

/-- A scope that lies in a frame of its own: it may change, and the root through GLOBAL marks; the
scopes around the frame do not. -/
def InFrame (ns : Names) (around : List Scope) (root : Scope) (c : Chain) : Prop :=
  (∃ s, s.frame = true ∧ c.inner = s :: around) ∧
    Relation.ReflTransGen (Scope.Redirect ns) root c.root

/-- A change happens inside the frame that is open. -/
theorem Change.inFrame {around : List Scope} {root : Scope} (h : c.Change ns c')
    (hc : InFrame ns around root c) : InFrame ns around root c' := by
  obtain ⟨⟨s, hframe, hinner⟩, hroot⟩ := hc
  cases h with
  | here write =>
    cases hinner
    exact ⟨⟨_, write.frame_eq.trans hframe, rfl⟩, hroot⟩
  | outward block =>
    cases hinner
    rw [hframe] at block
    cases block
  | root => cases hinner
  | redirect redirect => exact ⟨⟨s, hframe, hinner⟩, hroot.tail redirect⟩

theorem Changes.inFrame {around : List Scope} {root : Scope} (h : c.Changes ns c')
    (hc : InFrame ns around root c) : InFrame ns around root c' := by
  induction h with
  | refl => exact hc
  | tail _ change ih => exact change.inFrame ih

/-- Changes with a block around them are changes of the scopes outside the block, or of the block
alone. -/
theorem Change.pop (h : c.Change ns c') : c.pop.Changes ns c'.pop := by
  cases h with
  | here => exact .refl
  | outward block change => exact .single change
  | root write => exact .single (.root write)
  | redirect redirect => exact .single (.redirect redirect)

/-- Changes in a chain are changes around its innermost scope, once that is closed. -/
theorem Changes.pop (h : c.Changes ns c') : c.pop.Changes ns c'.pop := by
  induction h with
  | refl => exact .refl
  | tail _ change ih => exact ih.trans change.pop

/-- Changes of the root through GLOBAL marks are changes of the chain. -/
theorem changes_of_redirect (hinner : c'.inner = c.inner)
    (hroot : Relation.ReflTransGen (Scope.Redirect ns) c.root c'.root) : c.Changes ns c' := by
  obtain ⟨inner, root⟩ := c
  obtain ⟨inner', root'⟩ := c'
  cases hinner
  dsimp only at hroot
  induction hroot with
  | refl => exact .refl
  | tail _ redirect ih => exact ih.tail (.redirect redirect)

/-- The frame of a call that has just been opened. -/
def FreshFrame (c : Chain) : Prop :=
  ∃ s rest, c.inner = s :: rest ∧ s.frame = true ∧ s.globals = [] ∧ s.consts = []

/-- Bindings leave the kind of a scope, its marks and its constants as they are. -/
theorem bindAll_fresh (bindings : Table Value) (s : Scope) :
    (s.bindAll bindings).frame = s.frame ∧ (s.bindAll bindings).globals = s.globals ∧
      (s.bindAll bindings).consts = s.consts := by
  unfold Scope.bindAll
  induction bindings generalizing s with
  | nil => exact ⟨rfl, rfl, rfl⟩
  | cons entry rest ih => exact ih _

end Chain

/-! ## The invariant -/

/-- What may happen to a chain at each level. -/
def Chain.Effect (ns : Names) : Level → Chain → Chain → Prop
  | .expr, c, c' =>
    c'.inner = c.inner ∧ Relation.ReflTransGen (Scope.Redirect ns) c.root c'.root
  | .item, c, c' =>
    c'.inner.tail = c.inner.tail ∧ Relation.ReflTransGen (Scope.Redirect ns) c.root c'.root
  | .entry, c, c' => c.Changes ns c'
  | .stmt, c, c' => c.Changes ns c'

/-- What is known of a chain at each level. -/
def Chain.Ready (ns : Names) : Level → Chain → Prop
  | .expr, _ => True
  | .item, c => c.inner ≠ []
  | .entry, c => c.FreshFrame
  | .stmt, c => Marked ns c.inner

/-- Code with certain names in its GLOBAL statements and CATCHes has certain effects on the
scopes. -/
def effectInvariant (ns : Names) : Invariant where
  rule := ns.rule
  good l m := m.chain.Ready ns l
  step l m m₁ := m.chain.Effect ns l m₁.chain

namespace Chain

variable {ns : Names} {c c' c'' : Chain} {l : Level}

theorem Effect.refl (l : Level) (c : Chain) : c.Effect ns l c := by
  cases l with
  | expr => exact ⟨rfl, .refl⟩
  | item => exact ⟨rfl, .refl⟩
  | entry => exact Relation.ReflTransGen.refl
  | stmt => exact Relation.ReflTransGen.refl

/-- One effect after another. -/
theorem Effect.trans (h : c.Effect ns l c') (h' : c'.Effect ns l c'') : c.Effect ns l c'' := by
  cases l with
  | expr => exact ⟨h'.1.trans h.1, h.2.trans h'.2⟩
  | item => exact ⟨h'.1.trans h.1, h.2.trans h'.2⟩
  | entry => exact Relation.ReflTransGen.trans h h'
  | stmt => exact Relation.ReflTransGen.trans h h'

/-- Whatever an expression does may happen at every level. -/
theorem Effect.ofExpr (hc : c.Ready ns l) (h : c.Effect ns .expr c') :
    c'.Ready ns l ∧ c.Effect ns l c' := by
  cases l with
  | expr => exact ⟨trivial, h⟩
  | item => exact ⟨fun hnil => hc (h.1.symm.trans hnil), congrArg List.tail h.1, h.2⟩
  | entry =>
    obtain ⟨s, rest, hinner, hs⟩ := hc
    exact ⟨⟨s, rest, h.1.trans hinner, hs⟩, changes_of_redirect h.1 h.2⟩
  | stmt =>
    have changes := changes_of_redirect h.1 h.2
    exact ⟨changes.marked hc, changes⟩

/-- Changes within reach of a statement. -/
theorem Changes.ready (hc : c.Ready ns .stmt) (h : c.Changes ns c') :
    c'.Ready ns .stmt ∧ c.Effect ns .stmt c' :=
  ⟨h.marked hc, h⟩

/-- A new frame has no marks. -/
theorem FreshFrame.marked (h : c.FreshFrame) : Marked ns c.inner := by
  obtain ⟨s, rest, hinner, hframe, hglobals, -⟩ := h
  rw [hinner]
  refine ⟨by rw [hglobals]; exact nofun, fun hblock => ?_⟩
  rw [hframe] at hblock
  cases hblock

/-- Binding the variable of a comprehension in the block that was opened for it. -/
theorem ready_bindItem (hc : c.Ready ns .item) (name : String) (v : Value) :
    (c.bind name v).Ready ns .item ∧ c.Effect ns .item (c.bind name v) := by
  obtain ⟨_ | ⟨s, rest⟩, root⟩ := c
  · exact (hc rfl).elim
  · exact ⟨List.cons_ne_nil _ _, rfl, .refl⟩

/-- Binding a parameter. -/
theorem FreshFrame.bind (h : c.FreshFrame) (name : String) (v : Value) :
    (c.bind name v).FreshFrame ∧ c.Changes ns (c.bind name v) := by
  obtain ⟨inner, root⟩ := c
  obtain ⟨s, rest, hinner, hframe, hglobals, hconsts⟩ := h
  cases hinner
  have bound : s.Write ns (s.bind name v) := .bind name v (by rw [hconsts]; exact nofun)
  exact ⟨⟨s.bind name v, rest, rfl, hframe, hglobals, hconsts⟩, .single (.here bound)⟩

/-- Closing a frame, sooner or later. -/
theorem Changes.leave (h : c.Changes ns c') (h' : c'.Changes ns c'') {s : Scope}
    {around : List Scope} (hinner : c.inner = s :: around) (hframe : s.frame = true) :
    c''.pop.inner = c'.pop.inner ∧ Relation.ReflTransGen (Scope.Redirect ns) c'.root c''.root := by
  have start : InFrame ns around c.root c := ⟨⟨s, hframe, hinner⟩, .refl⟩
  obtain ⟨⟨s', hframe', hinner'⟩, -⟩ := h.inFrame start
  have sooner : InFrame ns around c'.root c' := ⟨⟨s', hframe', hinner'⟩, .refl⟩
  obtain ⟨⟨s'', -, hinner''⟩, hroot⟩ := h'.inFrame sooner
  refine ⟨?_, hroot⟩
  show c''.inner.tail = c'.inner.tail
  rw [hinner', hinner'']
  rfl

end Chain

/-- **What runs do to scopes.** -/
theorem effectInvariant_sound (ns : Names) (cx : Context) : (effectInvariant ns).Sound cx where
  refl := fun _ => Chain.Effect.refl _ _
  trans := Chain.Effect.trans
  good_expr := fun _ => trivial
  moves_of_expr := fun hm h => Chain.Effect.ofExpr hm h.2
  good_stmt := fun hm => hm.marked
  step_stmt := id
  moves_of_same := by
    intro l m m₁ hm hchain _
    unfold Invariant.Moves effectInvariant
    dsimp only
    rw [hchain]
    exact ⟨hm, Chain.Effect.refl l m.chain⟩
  bindItem := fun name v hm => Chain.ready_bindItem hm name v
  bindEntry := fun name v hm => hm.bind name v
  optionExplicit := by
    intro m p _ hm
    have explicit : m.chain.Change ns (m.chain.modifyTop ({ · with strict := true })) :=
      Chain.change_modifyTop .explicit
    exact Chain.Changes.ready hm (.single explicit)
  addGlobal := by
    intro m p names n hp hn hm
    have hmarked := List.all_eq_true.mp hp n hn
    exact Chain.Changes.ready hm (Chain.changes_addGlobal hmarked)
  define := fun name v hm => Chain.Changes.ready hm (Chain.changes_define name v hm)
  set := fun _ _ hm hc => Chain.Changes.ready hm (.single (Chain.change_set hm hc))
  defineLocal := fun _ _ hm hc => Chain.Changes.ready hm (.single (Chain.change_defineLocal hc))
  defineConst := fun _ _ hm hc => Chain.Changes.ready hm (.single (Chain.change_defineConst hc))
  bindCaught := by
    intro m p x e hp hm
    have bound : m.chain.Change ns (m.chain.bind x.name e.toValue) :=
      Chain.change_modifyTop (.bind x.name e.toValue fun _ => hp)
    exact Chain.Changes.ready hm (.single bound)
  openBlock := fun _ => List.cons_ne_nil _ _
  closeBlock := fun _ _ h => ⟨trivial, h.2.1, h.2.2⟩
  openResource := fun _ _ hm => ⟨nofun, fun _ => hm⟩
  closeResource := by
    intro m m₁ m₂ name v hm h h'
    have before := Chain.Changes.ready hm (Chain.Changes.pop h.2)
    exact Chain.Changes.ready before.1 (Chain.Changes.pop h'.2)
  openFrame := fun _ _ => ⟨_, _, rfl, rfl, rfl, rfl⟩
  closeFrame := by
    intro m m₁ m₂ _ _ h h'
    exact ⟨trivial, Chain.Changes.leave h.2 h'.2 rfl rfl⟩
  openLambda := by
    intro m bindings _ _
    obtain ⟨hframe, hglobals, hconsts⟩ :=
      Chain.bindAll_fresh bindings { strict := m.chain.root.strict }
    exact ⟨_, _, rfl, hframe, hglobals, hconsts⟩
  closeLambda := by
    intro m m₁ m₂ bindings _ _ h h'
    obtain ⟨hframe, -, -⟩ := Chain.bindAll_fresh bindings { strict := m.chain.root.strict }
    exact ⟨trivial, rfl, (Chain.Changes.leave h.2 h'.2 rfl hframe).2⟩

/-! ## Runs -/

section Runs

variable {ns : Names} (cx : Context) (fuel : Nat) {m : Machine} (hm : m.Obeys ns.rule)
include hm

/-- What an evaluation does to the scopes. -/
theorem effect_eval {e : Expr} (he : ns.rule.expr e) :
    m.chain.Effect ns .expr ((eval cx fuel e).after m).chain := by
  have S := effectInvariant_sound ns cx
  have ends := (S.engines fuel).eval e he m m ⟨rfl, hm, trivial⟩
  exact (Invariant.moves_of_ends ends).2

/-- What an execution does to the scopes. -/
theorem changes_exec {p : Place} {s : Stmt} (hs : ns.rule.stmt p s)
    (hmarked : Chain.Marked ns m.chain.inner) :
    m.chain.Changes ns ((exec cx fuel s).after m).chain := by
  have S := effectInvariant_sound ns cx
  have ends := (S.engines fuel).exec p s hs m m ⟨rfl, hm, hmarked⟩
  exact (Invariant.moves_of_ends ends).2

/-- What the run of a program does to the scopes. -/
theorem changes_topLevel {body : List Stmt} (hbody : ns.rule.stmts ⟨.main, []⟩ body)
    (hmarked : Chain.Marked ns m.chain.inner) :
    m.chain.Changes ns (((engine cx fuel).topLevel body).after m).chain := by
  have S := effectInvariant_sound ns cx
  have ends := (S.engines fuel).topLevel S.lockstep body hbody m m ⟨rfl, hm, hmarked⟩
  exact (Invariant.moves_of_ends ends).2

end Runs

/-- Where all names may be marked GLOBAL, all marks are of such names. -/
theorem Chain.marked_of_all {ns : Names} (hall : ∀ name, ns.marked name) (inner : List Scope) :
    Chain.Marked ns inner := by
  induction inner with
  | nil => trivial
  | cons s rest ih => exact ⟨fun name _ => hall name, fun _ => ih⟩

end BasicScript
