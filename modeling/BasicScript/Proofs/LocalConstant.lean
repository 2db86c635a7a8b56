import BasicScript.Proofs.Assignment

/-!
# Constants of inner scopes

CONST binds a name in the innermost scope, in place of whatever the name stands for outside.  The
constant is what reads find from there and from every scope inside that does not decide on the name
itself, and no assignment or declaration gets past it.  But a name that the innermost scope has marked
GLOBAL stands for the variable of the root before the scope's own bindings are looked at: CONST still
binds and marks it, and neither reads nor writes ever come to see that.

* `Chain.Redirects`: the innermost scope sends a name to the root.
* `Chain.inside`: scopes that are opened further in.
* `Chain.lookup?_modifyTop`: a binding of the innermost scope is what a read finds, unless the name
  is redirected.
* `Chain.set_of_isConst`: a constant that can be seen is not assigned to.
* `local_constant_shadows_unless_marked` is the main statement, and `local_constant_not_seen` a
  constant that is not there for its own scope.
-/

namespace BasicScript

namespace Chain

/-- The innermost scope lies inside the root and marks a name GLOBAL. -/
def Redirects (c : Chain) (name : String) : Prop :=
  c.inner ≠ [] ∧ name ∈ c.top.globals

/-- More scopes are open inside the innermost one. -/
def inside (c : Chain) (opened : List Scope) : Chain :=
  ⟨opened ++ c.inner, c.root⟩

variable {c c' : Chain} {name : String} {v : Value} {f : Scope → Scope}

/-! ## The innermost scope -/

/-- A constant of the innermost scope is one, unless the name is marked there. -/
theorem isConst_of_constant {s root : Scope} {rest : List Scope} (hmark : name ∉ s.globals)
    (hconst : name ∈ s.consts) : isConst ⟨s :: rest, root⟩ name = true := by
  unfold isConst isConstIn
  rw [if_neg hmark, if_pos hconst]

/-- A name that is redirected has its value in the root. -/
theorem lookup?_of_redirects (h : c.Redirects name) :
    c.lookup? name = Table.get? c.root.vars name := by
  obtain ⟨_ | ⟨s, rest⟩, root⟩ := c
  · exact absurd rfl h.1
  · exact lookup?_of_marked h.2

/-- A name that is redirected is a constant if it is one in the root. -/
theorem isConst_of_redirects (h : c.Redirects name) :
    c.isConst name = decide (name ∈ c.root.consts) := by
  obtain ⟨_ | ⟨s, rest⟩, root⟩ := c
  · exact absurd rfl h.1
  · exact isConst_of_marked h.2

/-- A change of the innermost scope that leaves the marks leaves a redirected name redirected, to
the same root. -/
theorem Redirects.modifyTop (h : c.Redirects name)
    (hglobals : (f c.top).globals = c.top.globals) :
    (c.modifyTop f).Redirects name ∧ (c.modifyTop f).root = c.root := by
  obtain ⟨_ | ⟨s, rest⟩, root⟩ := c
  · exact absurd rfl h.1
  · have hmark : name ∈ (f s).globals := hglobals ▸ h.2
    exact ⟨⟨List.cons_ne_nil _ _, hmark⟩, rfl⟩

/-- What the innermost scope binds is what a read finds, unless the name is redirected. -/
theorem lookup?_modifyTop (h : ¬ c.Redirects name)
    (hglobals : (f c.top).globals = c.top.globals)
    (hbound : Table.get? (f c.top).vars name = some v) :
    (c.modifyTop f).lookup? name = some v := by
  obtain ⟨_ | ⟨s, rest⟩, root⟩ := c
  · exact hbound
  · have hmark : name ∉ (f s).globals := by
      intro hmem
      exact h ⟨List.cons_ne_nil _ _, hglobals ▸ hmem⟩
    exact lookup?_of_bound hmark hbound

/-- A name that becomes a constant of the innermost scope is one from then on, unless it is
redirected. -/
theorem isConst_modifyTop (h : ¬ c.Redirects name)
    (hglobals : (f c.top).globals = c.top.globals) (hconst : name ∈ (f c.top).consts) :
    (c.modifyTop f).isConst name = true := by
  obtain ⟨_ | ⟨s, rest⟩, root⟩ := c
  · exact decide_eq_true hconst
  · have hmark : name ∉ (f s).globals := by
      intro hmem
      exact h ⟨List.cons_ne_nil _ _, hglobals ▸ hmem⟩
    exact isConst_of_constant hmark hconst

/-! ## Scopes further in -/

section Inside

variable {opened : List Scope} (hopened : ∀ s ∈ opened, s.decides name = false)
include hopened

/-- Inside blocks that are opened a name has the same value. -/
theorem lookup?_inside : (c.inside opened).lookup? name = c.lookup? name := by
  induction opened with
  | nil => rfl
  | cons s rest ih =>
    obtain ⟨hundecided, hrest⟩ := List.forall_mem_cons.mp hopened
    obtain ⟨hmark, hbound⟩ := Scope.decides_eq_false_iff.mp hundecided
    exact (lookup?_of_passed hmark hbound).trans (ih hrest)

/-- Inside blocks that are opened a constant is still one. -/
theorem isConst_inside (hconst : c.isConst name = true) :
    (c.inside opened).isConst name = true := by
  induction opened with
  | nil => exact hconst
  | cons s rest ih =>
    obtain ⟨hundecided, hrest⟩ := List.forall_mem_cons.mp hopened
    obtain ⟨hmark, hbound⟩ := Scope.decides_eq_false_iff.mp hundecided
    by_cases hmarked : name ∈ s.consts
    · exact isConst_of_constant hmark hmarked
    · exact (isConst_of_passed hmark hmarked hbound).trans (ih hrest)

end Inside

/-! ## Writes of constants -/

/-- A constant that can be seen is not assigned to, in whatever scope it is. -/
theorem set_of_isConst (hconst : c.isConst name = true) (w : Value) :
    c.set name w = .error (.constAssignment name) := by
  unfold set
  by_cases hmark : name ∈ c.top.globals
  · have hroot : name ∈ c.root.consts := by
      obtain ⟨_ | ⟨s, rest⟩, root⟩ := c
      · exact of_decide_eq_true hconst
      · exact of_decide_eq_true ((isConst_of_marked (s := s) hmark).symm.trans hconst)
    unfold setRoot
    rw [if_pos hmark, if_pos hroot]
    rfl
  · rw [if_neg hmark, if_pos hconst]

/-- Nor is it declared as a variable. -/
theorem define_of_isConst (hconst : c.isConst name = true) (w : Value) :
    c.define name w = (c, .error (.constAssignment name)) :=
  if_pos hconst

/-- A redirected name is declared by a write of the root. -/
theorem define_of_redirects (h : c.Redirects name) (w : Value) :
    (c.define name w).2 = (setRoot c.root c.top.strict name w).map fun _ => () := by
  have hconst := isConst_of_redirects h
  unfold define
  by_cases hroot : name ∈ c.root.consts
  · rw [if_pos (hconst.trans (decide_eq_true hroot))]
    unfold setRoot
    rw [if_pos hroot]
    rfl
  · have hfresh : ¬ c.isConst name = true := by
      rw [hconst]
      exact fun hmem => hroot (of_decide_eq_true hmem)
    obtain ⟨_ | ⟨s, rest⟩, root⟩ := c
    · exact absurd rfl h.1
    rw [if_neg hfresh, if_pos h.2]
    dsimp only [modifyTop, top, Scope.declare, List.headD_cons]
    cases setRoot root s.strict name w <;> rfl

/-- What CONST does if it succeeds. -/
theorem defineConst_eq_ok (h : c.defineConst name v = .ok c') :
    c' = c.modifyTop fun s => { s with consts := Scope.addName s.consts name }.bind name v := by
  unfold defineConst at h
  split at h
  · cases h
  · cases h
    rfl

end Chain

open Chain in
/-- **A constant of the innermost scope stands in front of everything outside, unless a mark stands in
front of it.**  After CONST has bound a name, reads find the constant from there and from all scopes
further in that neither mark nor bind the name, whatever the scopes outside hold; the name counts as
a constant, and an assignment or a declaration of it fails and changes nothing.  If however the scope
lies inside the root and has marked the name GLOBAL, then reads go on to find the variable of the
root, the name is a constant if the root says so, and an assignment or a declaration writes the root
as if there were no constant. -/
theorem local_constant_shadows_unless_marked (c c' : Chain) (name : String) (v : Value)
    (h : c.defineConst name v = .ok c') :
    (¬ c.Redirects name → ∀ opened : List Scope, (∀ s ∈ opened, s.decides name = false) →
      let here := c'.inside opened
      here.lookup? name = some v ∧ here.isConst name = true ∧
      ∀ w, here.set name w = .error (.constAssignment name) ∧
        here.define name w = (here, .error (.constAssignment name))) ∧
    (c.Redirects name →
      (∀ opened : List Scope, (∀ s ∈ opened, s.decides name = false) →
        (c'.inside opened).lookup? name = Table.get? c.root.vars name) ∧
      c'.isConst name = decide (name ∈ c.root.consts) ∧
      ∀ w, c'.set name w =
          (setRoot c.root c'.top.strict name w).map (fun root => { c' with root }) ∧
        (c'.define name w).2 = (setRoot c.root c'.top.strict name w).map fun _ => ()) := by
  have heq := defineConst_eq_ok h
  refine ⟨fun hhere opened hopened => ?_, fun hredirects => ?_⟩
  · have hlookup : c'.lookup? name = some v := by
      rw [heq]
      exact lookup?_modifyTop hhere rfl (Table.get?_insert_self _ name v)
    have hconst : c'.isConst name = true := by
      rw [heq]
      exact isConst_modifyTop hhere rfl (Scope.mem_addName.mpr (.inl rfl))
    have hinside := isConst_inside hopened hconst
    refine ⟨(lookup?_inside hopened).trans hlookup, hinside, fun w => ?_⟩
    exact ⟨set_of_isConst hinside w, define_of_isConst hinside w⟩
  · obtain ⟨hredirects', hroot⟩ : c'.Redirects name ∧ c'.root = c.root := by
      rw [heq]
      exact hredirects.modifyTop rfl
    refine ⟨fun opened hopened => ?_, ?_, fun w => ⟨?_, ?_⟩⟩
    · rw [lookup?_inside hopened, lookup?_of_redirects hredirects', hroot]
    · rw [isConst_of_redirects hredirects', hroot]
    · unfold Chain.set
      rw [if_pos hredirects'.2, hroot]
    · rw [define_of_redirects hredirects', hroot]

/-- The scopes inside a procedure that is called where `X` is a constant with the value 1 and marked
GLOBAL. -/
def procedureUnderX : Chain :=
  let root : Chain := ⟨[], { vars := [("X", .int 1)], consts := ["X"], globals := ["X"] }⟩
  root.push root.newFrame

/-- CONST in the procedure gives `X` the value 3, also for a procedure that is called from there. -/
theorem local_constant_shadows_unless_marked_calledFrom :
    ∃ c, procedureUnderX.defineConst "X" (.int 3) = .ok c ∧ ¬ procedureUnderX.Redirects "X" ∧
      c.newFrame.decides "X" = false ∧ (c.inside [c.newFrame]).lookup? "X" = some (.int 3) := by
  refine ⟨_, rfl, ?_, rfl, ?_⟩
  · rintro ⟨-, hmark⟩
    cases hmark
  · refine ((local_constant_shadows_unless_marked procedureUnderX _ "X" (.int 3) rfl).1 ?_ _ ?_).1
    · rintro ⟨-, hmark⟩
      cases hmark
    · rintro s hs
      rw [List.mem_singleton.mp hs]
      rfl

/-- In a procedure that has marked `X` GLOBAL, CONST succeeds and has no effect that the procedure can
see: `X` has no value, is no constant, and can be assigned to. -/
theorem local_constant_not_seen :
    let frame := Chain.push {} (Chain.newFrame {})
    ∃ c, (frame.addGlobal "X").defineConst "X" (.int 3) = .ok c ∧
      c.lookup? "X" = none ∧ c.isConst "X" = false ∧
      ∃ c', c.set "X" (.int 4) = .ok c' ∧ c'.lookup? "X" = some (.int 4) :=
  ⟨_, rfl, rfl, rfl, _, rfl, rfl⟩

end BasicScript
