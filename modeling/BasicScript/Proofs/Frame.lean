import BasicScript.Proofs.Effect

/-!
# Frames are isolated

The frame of a procedure lies inside the scopes of its caller, which it can read; the frame of a
lambda lies in the root.  What a call writes stays in its frame all the same.  An expression
therefore changes no scope but the root, and a statement no scope beyond the nearest frame but the
root.  The root is changed from inside a frame through GLOBAL marks only.

* `Chain.Changes.beyond_eq`: what lies beyond the nearest frame stays as it is.
* `Chain.Changes.root_sameBut`: so does the root, but for names that are marked GLOBAL.
* `frame_isolation` says this of all evaluations and executions.
-/

namespace BasicScript

/-- Code marks only some names GLOBAL. -/
def Rule.globalsAmong (marked : String → Bool) : Rule :=
  Names.rule { marked }

/-- Code marks no name GLOBAL. -/
def Rule.noGlobals : Rule :=
  .globalsAmong fun _ => false

/-- The scopes beyond the nearest frame. -/
def Chain.beyond : List Scope → List Scope
  | [] => []
  | s :: rest => if s.frame then rest else beyond rest

/-- A scope is as another one, but for the variables and the declarations of some names. -/
structure Scope.SameBut (names : String → Bool) (s s' : Scope) : Prop where
  consts : s'.consts = s.consts
  globals : s'.globals = s.globals
  strict : s'.strict = s.strict
  frame : s'.frame = s.frame
  vars : ∀ name, names name = false → Table.get? s'.vars name = Table.get? s.vars name
  declared : ∀ name, names name = false → (name ∈ s'.declared ↔ name ∈ s.declared)

/-! ## The root -/

namespace Scope

variable {ns : Names} {names : String → Bool} {s s' s'' : Scope}

theorem SameBut.refl (s : Scope) : s.SameBut names s :=
  ⟨rfl, rfl, rfl, rfl, fun _ _ => rfl, fun _ _ => Iff.rfl⟩

/-- One change after another spares the names that both spare. -/
theorem SameBut.trans (h : s.SameBut names s') (h' : s'.SameBut names s'') :
    s.SameBut names s'' where
  consts := h'.consts.trans h.consts
  globals := h'.globals.trans h.globals
  strict := h'.strict.trans h.strict
  frame := h'.frame.trans h.frame
  vars := fun name hname => (h'.vars name hname).trans (h.vars name hname)
  declared := fun name hname => (h'.declared name hname).trans (h.declared name hname)

/-- A scope that differs in fewer names differs in no more. -/
theorem SameBut.mono {more : String → Bool} (h : s.SameBut names s')
    (hmore : ∀ name, more name = false → names name = false) : s.SameBut more s' where
  consts := h.consts
  globals := h.globals
  strict := h.strict
  frame := h.frame
  vars := fun name hname => h.vars name (hmore name hname)
  declared := fun name hname => h.declared name (hmore name hname)

/-- A write spares all other names. -/
theorem sameBut_write (s : Scope) (name : String) (v : Value) :
    s.SameBut (name == ·) (s.write name v) :=
  ⟨rfl, rfl, rfl, rfl, fun _ hne => Table.get?_insert_of_ne s.vars v (ne_of_beq_false hne),
    fun _ _ => Iff.rfl⟩

/-- A declaration spares all other names. -/
theorem sameBut_declare (s : Scope) (name : String) : s.SameBut (name == ·) (s.declare name) := by
  refine ⟨rfl, rfl, rfl, rfl, fun _ _ => rfl, fun y hne => ?_⟩
  have hne := ne_of_beq_false hne
  exact ⟨fun hmem => (mem_addName.mp hmem).resolve_left hne.symm, fun hmem =>
    mem_addName.mpr (.inr hmem)⟩

/-- What happens to the root through a GLOBAL mark. -/
theorem Redirect.sameBut (h : s.Redirect ns s') : s.SameBut ns.marked s' := by
  -- A name that is not marked is not the name that was written or declared.
  have other : ∀ {x y : String}, ns.marked x = true → ns.marked y = false → (x == y) = false := by
    intro x y hx hy
    refine beq_false_of_ne ?_
    rintro rfl
    rw [hx] at hy
    cases hy
  cases h with
  | write x v hx => exact (sameBut_write s x v).mono fun y hy => other hx hy
  | declare x hx => exact (sameBut_declare s x).mono fun y hy => other hx hy

/-- Without GLOBAL marks nothing happens to the root. -/
theorem eq_of_redirects (hnone : ∀ name, ns.marked name = false)
    (h : Relation.ReflTransGen (Redirect ns) s s') : s' = s := by
  induction h with
  | refl => rfl
  | tail _ redirect ih =>
    cases redirect with
    | write name v marked =>
      rw [hnone] at marked
      cases marked
    | declare name marked =>
      rw [hnone] at marked
      cases marked

end Scope

/-! ## Statements -/

namespace Chain

variable {ns : Names} {c c' : Chain}

/-- The scopes stay the frames and blocks that they are. -/
theorem Change.frames_eq (h : c.Change ns c') :
    c'.inner.map (·.frame) = c.inner.map (·.frame) := by
  induction h with
  | here write => exact congrArg (· :: _) write.frame_eq
  | outward block change ih => exact congrArg (_ :: ·) ih
  | root => rfl
  | redirect => rfl

/-- Changes leave frames frames and blocks blocks. -/
theorem Changes.frames_eq (h : c.Changes ns c') :
    c'.inner.map (·.frame) = c.inner.map (·.frame) := by
  induction h with
  | refl => rfl
  | tail _ change ih => exact change.frames_eq.trans ih

/-- A change within reach spares the scopes beyond the nearest frame. -/
theorem Change.beyond_eq (h : c.Change ns c') : beyond c'.inner = beyond c.inner := by
  induction h with
  | @here s s' rest root write =>
    unfold beyond
    rw [write.frame_eq]
  | @outward s rest rest' root root' block change ih =>
    unfold beyond
    rw [block]
    exact ih
  | root => rfl
  | redirect => rfl

/-- What lies beyond the nearest frame stays as it is. -/
theorem Changes.beyond_eq (h : c.Changes ns c') : beyond c'.inner = beyond c.inner := by
  induction h with
  | refl => rfl
  | tail _ change ih => exact change.beyond_eq.trans ih

/-- One of the scopes is a frame, apart from the root. -/
def HasFrame (c : Chain) : Prop :=
  true ∈ c.inner.map (·.frame)

/-- Inside a frame the root is changed through GLOBAL marks only. -/
theorem Change.root_sameBut (h : c.Change ns c') (hframe : c.HasFrame) :
    c.root.SameBut ns.marked c'.root := by
  induction h with
  | here write => exact .refl _
  | @outward s rest rest' root root' block change ih =>
    refine ih ?_
    rcases List.mem_cons.mp hframe with hs | hrest
    · exact absurd (hs.trans block) nofun
    · exact hrest
  | root => cases hframe
  | redirect redirect => exact redirect.sameBut

/-- Inside a frame the root stays as it is, but for names that are marked GLOBAL. -/
theorem Changes.root_sameBut (h : c.Changes ns c') (hframe : c.HasFrame) :
    c.root.SameBut ns.marked c'.root := by
  induction h with
  | refl => exact .refl _
  | @tail c₁ c₂ before change ih =>
    have hframe₁ : c₁.HasFrame := by
      unfold HasFrame
      rw [Changes.frames_eq before]
      exact hframe
    exact ih.trans (change.root_sameBut hframe₁)

end Chain

/-! ## Evaluations and executions -/

/-- Code of any kind obeys the rule that lets it mark all names GLOBAL. -/
theorem Rule.globalsAmong_lax : (Rule.globalsAmong fun _ => true).Lax := by
  intro p shape
  cases shape with
  | globals names => exact List.all_eq_true.mpr fun _ _ => rfl
  | attempt x => cases x <;> rfl
  | _ => rfl

/-- **Frames are isolated.**  However it ends, an evaluation leaves all scopes but the root exactly
as they were, and the root too if no code that is loaded or contained in the expression marks a name
GLOBAL.  An execution leaves all scopes beyond the nearest frame exactly as they were; inside a
frame it leaves the root as it was but for some variables and declarations, and these belong to
names that are marked GLOBAL: in a scope within reach, or by a statement of the code. -/
theorem frame_isolation (cx : Context) (fuel : Nat) (m : Machine) :
    (∀ e : Expr,
      ((eval cx fuel e).after m).chain.inner = m.chain.inner ∧
      (m.Obeys .noGlobals → Rule.noGlobals.expr e →
        ((eval cx fuel e).after m).chain.root = m.chain.root)) ∧
    (∀ s : Stmt,
      ((exec cx fuel s).after m).chain.inner.map (·.frame) = m.chain.inner.map (·.frame) ∧
      Chain.beyond ((exec cx fuel s).after m).chain.inner = Chain.beyond m.chain.inner ∧
      (m.chain.HasFrame →
        m.chain.root.SameBut (fun _ => true) ((exec cx fuel s).after m).chain.root ∧
        ∀ marked : String → Bool, Chain.Marked { marked } m.chain.inner →
          m.Obeys (.globalsAmong marked) → (Rule.globalsAmong marked).stmt ⟨.main, []⟩ s →
          m.chain.root.SameBut marked ((exec cx fuel s).after m).chain.root)) := by
  have hlax := Rule.globalsAmong_lax
  have hany : m.Obeys (.globalsAmong fun _ => true) := .of_lax hlax
  refine ⟨fun e => ⟨?_, ?_⟩, fun s => ?_⟩
  · exact (effect_eval cx fuel hany (hlax.expr e)).1
  · intro hm he
    exact Scope.eq_of_redirects (fun _ => rfl) (effect_eval cx fuel hm he).2
  · have changes := changes_exec cx fuel hany (hlax.stmt ⟨.main, []⟩ s)
      (Chain.marked_of_all (fun _ => rfl) _)
    refine ⟨Chain.Changes.frames_eq changes, Chain.Changes.beyond_eq changes, fun hframe => ?_⟩
    refine ⟨Chain.Changes.root_sameBut changes hframe, fun marked hmarked hm hs => ?_⟩
    exact Chain.Changes.root_sameBut (changes_exec cx fuel hm hs hmarked) hframe

/-- A FUNCTION that assigns to a name which its caller and the root have bound too. -/
theorem frame_isolation_shadowed :
    let f : Procedure := .function (.ofString "F") none ⟨[], [.assign (.ofString "X") (.int 3)]⟩
    let m : Machine := ({ chain := ⟨[{ vars := [("X", .int 2)] }], { vars := [("X", .int 1)] }⟩ } :
      Machine).loadProcedure "F" f
    let e : Expr := .call (.ofString "F") [] []
    m.Obeys .noGlobals ∧ Rule.noGlobals.expr e ∧
      ((eval {} 9 e).after m).chain.inner = m.chain.inner ∧
      ((eval {} 9 e).after m).chain.root = m.chain.root := by
  intro f m e
  have hm : m.Obeys .noGlobals := (Machine.Obeys.of_empty rfl rfl rfl).loadProcedure "F" (by decide)
  have he : Rule.noGlobals.expr e := by decide
  have isolated := (frame_isolation {} 9 m).1 e
  exact ⟨hm, he, isolated.1, isolated.2 hm he⟩

end BasicScript
