import BasicScript.Proofs.Effect
import Mathlib.Data.List.Forall2

/-!
# Constants

CONST and ENUM bind a name in the innermost scope and mark it there.  A mark is never taken away,
and all ways of writing a variable look for it first, with one exception: the variable of a CATCH is
bound in the innermost scope whether it is marked there or not.

* `Scope.KeepsConsts`: the marks of a scope stay, and so do the values of the names that are marked
  and that no CATCH uses.
* `Chain.Changes.keepsConsts`: every run keeps the constants of all scopes.
* `KeepsConstsHenceforth`: so does everything that may happen from some moment on, between any two
  moments.
* `constants_kept_unless_caught` says this of all moments of a run, and also that a CATCH does
  overwrite a constant.
-/

namespace BasicScript

/-- The variables of the CATCHes of code are among some names. -/
def Rule.caughtAmong (caught : String → Bool) : Rule :=
  Names.rule { caught }

/-- What a scope has marked as constant it keeps marked, and its value too unless a CATCH may use
the name. -/
def Scope.KeepsConsts (caught : String → Bool) (s s' : Scope) : Prop :=
  ∀ name ∈ s.consts, name ∈ s'.consts ∧
    (caught name = false → Table.get? s'.vars name = Table.get? s.vars name)

/-- All scopes of a chain keep their constants. -/
structure Chain.KeepsConsts (caught : String → Bool) (c c' : Chain) : Prop where
  inner : List.Forall₂ (Scope.KeepsConsts caught) c.inner c'.inner
  root : c.root.KeepsConsts caught c'.root

/-! ## Scopes -/

namespace Scope

variable {ns : Names} {caught : String → Bool} {s s' s'' : Scope}

theorem KeepsConsts.refl (s : Scope) : s.KeepsConsts caught s :=
  fun _ hmem => ⟨hmem, fun _ => rfl⟩

theorem KeepsConsts.trans (h : s.KeepsConsts caught s') (h' : s'.KeepsConsts caught s'') :
    s.KeepsConsts caught s'' := by
  intro name hmem
  obtain ⟨hmem', hvalue⟩ := h name hmem
  obtain ⟨hmem'', hvalue'⟩ := h' name hmem'
  exact ⟨hmem'', fun hname => (hvalue' hname).trans (hvalue hname)⟩

/-- A write of a name that is not marked leaves constants alone. -/
theorem get?_insert_const {x name : String} {v : Value} (hfresh : x ∉ s.consts)
    (hmem : name ∈ s.consts) :
    Table.get? (Table.insert s.vars x v) name = Table.get? s.vars name := by
  refine Table.get?_insert_of_ne s.vars v ?_
  rintro rfl
  exact hfresh hmem

/-- A change of a scope within reach writes a constant only for a CATCH. -/
theorem Write.keepsConsts (h : s.Write ns s') : s.KeepsConsts ns.caught s' := by
  intro name hmem
  cases h with
  | write x v fresh => exact ⟨hmem, fun _ => get?_insert_const fresh hmem⟩
  | bind x v fresh =>
    refine ⟨hmem, fun hname => Table.get?_insert_of_ne s.vars v ?_⟩
    -- A constant that was bound anew is the variable of a CATCH.
    rintro rfl
    rw [fresh hmem] at hname
    cases hname
  | constant x v fresh =>
    exact ⟨mem_addName.mpr (.inr hmem), fun _ => get?_insert_const (s := s) fresh hmem⟩
  | declare x => exact ⟨hmem, fun _ => rfl⟩
  | mark x => exact ⟨hmem, fun _ => rfl⟩
  | explicit => exact ⟨hmem, fun _ => rfl⟩

/-- A change of the root through a GLOBAL mark writes no constant. -/
theorem Redirect.keepsConsts (h : s.Redirect ns s') : s.KeepsConsts ns.caught s' := by
  intro name hmem
  cases h with
  | write x v marked fresh => exact ⟨hmem, fun _ => get?_insert_const fresh hmem⟩
  | declare x => exact ⟨hmem, fun _ => rfl⟩

end Scope

/-! ## Chains -/

namespace Chain

variable {ns : Names} {caught : String → Bool} {c c' c'' : Chain}

theorem forall₂_refl (scopes : List Scope) :
    List.Forall₂ (Scope.KeepsConsts caught) scopes scopes :=
  List.forall₂_same.mpr fun s _ => .refl s

/-- All scopes keep their constants in one change after another. -/
theorem forall₂_trans {ss ss' ss'' : List Scope}
    (h : List.Forall₂ (Scope.KeepsConsts caught) ss ss')
    (h' : List.Forall₂ (Scope.KeepsConsts caught) ss' ss'') :
    List.Forall₂ (Scope.KeepsConsts caught) ss ss'' := by
  induction h generalizing ss'' with
  | nil => exact h'
  | cons hs _ ih =>
    cases h' with
    | cons hs' hrest => exact .cons (hs.trans hs') (ih hrest)

theorem KeepsConsts.refl (c : Chain) : c.KeepsConsts caught c :=
  ⟨forall₂_refl c.inner, .refl c.root⟩

theorem KeepsConsts.trans (h : c.KeepsConsts caught c') (h' : c'.KeepsConsts caught c'') :
    c.KeepsConsts caught c'' :=
  ⟨forall₂_trans h.inner h'.inner, h.root.trans h'.root⟩

/-- One change, in the scope where it takes place. -/
theorem Change.keepsConsts (h : c.Change ns c') : c.KeepsConsts ns.caught c' := by
  induction h with
  | here write => exact ⟨.cons write.keepsConsts (forall₂_refl _), .refl _⟩
  | outward block change ih => exact ⟨.cons (.refl _) ih.inner, ih.root⟩
  | root write => exact ⟨.nil, write.keepsConsts⟩
  | redirect redirect => exact ⟨forall₂_refl _, redirect.keepsConsts⟩

/-- Every run keeps the constants of all scopes. -/
theorem Changes.keepsConsts (h : c.Changes ns c') : c.KeepsConsts ns.caught c' := by
  induction h with
  | refl => exact .refl c
  | tail _ change ih => exact ih.trans change.keepsConsts

/-- The writes that look for constants before they write.  They do so whatever the chain is, also in
the middle of a statement that goes on afterwards. -/
structure WritesKeepConsts (c : Chain) : Prop where
  set : ∀ name v c', c.set name v = .ok c' → c.KeepsConsts (fun _ => false) c'
  define : ∀ name v, c.KeepsConsts (fun _ => false) (c.define name v).1
  defineLocal : ∀ name v c', c.defineLocal name v = .ok c' → c.KeepsConsts (fun _ => false) c'
  defineConst : ∀ name v c', c.defineConst name v = .ok c' → c.KeepsConsts (fun _ => false) c'
  addGlobal : ∀ name, c.KeepsConsts (fun _ => false) (c.addGlobal name)

/-- **No assignment and no declaration writes a constant**, in whatever scopes. -/
theorem writesKeepConsts (c : Chain) : c.WritesKeepConsts := by
  -- No name is that of a CATCH here, and all names may be marked GLOBAL.
  let ns : Names := { caught := fun _ => false }
  have hc : Marked ns c.inner := marked_of_all (fun _ => rfl) c.inner
  refine ⟨?_, ?_, ?_, ?_, ?_⟩
  · intro name v c' h
    exact Change.keepsConsts (change_set hc h)
  · intro name v
    exact Changes.keepsConsts (changes_define name v hc)
  · intro name v c' h
    have change : c.Change ns c' := change_defineLocal h
    exact change.keepsConsts
  · intro name v c' h
    have change : c.Change ns c' := change_defineConst h
    exact change.keepsConsts
  · intro name
    have changes : c.Changes ns (c.addGlobal name) := changes_addGlobal rfl
    exact Changes.keepsConsts changes

/-- CONST and ENUM mark what they bind. -/
theorem defineConst_top {name : String} {v : Value} (h : c.defineConst name v = .ok c') :
    name ∈ c'.top.consts ∧ Table.get? c'.top.vars name = some v := by
  unfold defineConst at h
  split at h
  · cases h
  cases h
  obtain ⟨_ | ⟨s, rest⟩, root⟩ := c
  · exact ⟨Scope.mem_addName.mpr (.inl rfl), Table.get?_insert_self _ name v⟩
  · exact ⟨Scope.mem_addName.mpr (.inl rfl), Table.get?_insert_self _ name v⟩

/-- A binding is made in the innermost scope. -/
theorem bind_top (c : Chain) (name : String) (v : Value) :
    (c.bind name v).top = c.top.bind name v := by
  obtain ⟨_ | ⟨s, rest⟩, root⟩ := c <;> rfl

end Chain

/-! ## Runs -/

/-- The scopes that are open at a machine keep their constants, whatever statements run from there:
from every moment to every later one, as long as the scopes are open. -/
def KeepsConstsHenceforth (cx : Context) (caught : String → Bool) (m : Machine) : Prop :=
  ∀ (fuel : Nat) (place : Place) (body : List Stmt), (Rule.caughtAmong caught).stmts place body →
    Henceforth (·.chain.KeepsConsts caught ·.chain) cx fuel (fun g => g.block body) m

section Runs

variable (cx : Context) {caught : String → Bool} {m : Machine} (hm : m.Obeys (.caughtAmong caught))
include hm

/-- All names may be marked GLOBAL here. -/
theorem holds_of_obeys : (effectInvariant { caught }).Holds .stmt m :=
  ⟨hm, Chain.marked_of_all (fun _ => rfl) _⟩

/-- A machine whose code has the CATCHes in question keeps its constants from then on. -/
theorem keepsConstsHenceforth_of_obeys : KeepsConstsHenceforth cx caught m := by
  have S := effectInvariant_sound { caught } cx
  intro fuel place body hbody stop later
  have changes := S.henceforth fuel (holds_of_obeys hm)
    (fun _ _ G => G.block S.stopping place body hbody) stop later
  exact Chain.Changes.keepsConsts changes

/-- So does the run of a program, at every moment of it. -/
theorem topLevel_keepsConsts (fuel : Nat) {body : List Stmt}
    (hbody : (Rule.caughtAmong caught).stmts ⟨.main, []⟩ body) :
    Henceforth (·.chain.KeepsConsts caught ·.chain) cx fuel (fun g => g.topLevel body) m := by
  have S := effectInvariant_sound { caught } cx
  intro stop later
  have changes := S.henceforth fuel (holds_of_obeys hm)
    (fun _ _ G => G.topLevel S.stopping body hbody) stop later
  exact Chain.Changes.keepsConsts changes

end Runs

/-- A TRY whose body fails and whose handler does nothing. -/
theorem exec_attempt_caught (cx : Context) (fuel : Nat) {m m₁ : Machine} {body : List Stmt}
    {e : Failure} (x : Ident) (h : (engine cx fuel).block body m = .error (.failed e) m₁) :
    exec cx (fuel + 1) (.attempt body (some ⟨some x, []⟩) none) m =
      .ok .normal { m₁ with chain := m₁.chain.bind x.name e.toValue } := by
  show Run.surface ((engine cx fuel).guarded body (some ⟨some x, []⟩)) m = _
  unfold Run.surface Engine.guarded
  rw [h]
  rfl

/-- Loading a program does not touch the scopes. -/
theorem load_chain (m : Machine) (p : Program) : (m.load p).chain = m.chain := by
  obtain ⟨statements⟩ := p
  unfold Machine.load
  dsimp only
  induction statements generalizing m with
  | nil => rfl
  | cons s rest ih =>
    refine (ih _).trans ?_
    cases s with
    | procedure q => cases q <;> rfl
    | typeBlock d => exact (Invariant.loadType_same m d).1
    | _ => rfl

/-- A verdict comes with the machine after the computation. -/
theorem verdict_snd {α : Type} (x : Run α) (m : Machine) : (x.verdict m).2 = x.after m := by
  unfold Run.verdict Run.after
  cases x m with
  | ok => rfl
  | error halt => cases halt <;> rfl

/-- **Constants are kept unless a CATCH overwrites them.**  A program is run on a machine, and the
variables of the CATCHes in both are among some names.  Whatever a scope has marked as constant
stays marked, and the value of a constant that has none of these names stays as it is.  This holds
from the start of the run to its end, from every moment of the run to every later one, and, for the
scopes that are opened on the way, between all moments while they are open.  All writes but that of
a CATCH keep all constants.  CONST and ENUM mark what they bind.  But a failure that is caught is
bound to the variable of the CATCH in the innermost scope even if that is a constant there. -/
theorem constants_kept_unless_caught (cx : Context) (fuel : Nat) (caught : String → Bool)
    (m : Machine) (hm : m.Obeys (.caughtAmong caught)) (p : Program)
    (hp : (Rule.caughtAmong caught).program p) :
    let adopted := m.adopt p
    let loaded := adopted.2.load adopted.1
    let run := fun g : Engine => g.topLevel adopted.1.statements
    m.chain.KeepsConsts caught (m.run cx fuel p).2.chain ∧
    Henceforth (·.chain.KeepsConsts caught ·.chain) cx fuel run loaded ∧
    Throughout (KeepsConstsHenceforth cx caught) cx fuel run loaded ∧
    (∀ c : Chain, c.WritesKeepConsts) ∧
    (∀ (c c' : Chain) (name : String) (v : Value), c.defineConst name v = .ok c' →
      name ∈ c'.top.consts ∧ Table.get? c'.top.vars name = some v) ∧
    (∀ (m m₁ : Machine) (body : List Stmt) (x : Ident) (e : Failure),
      (engine cx fuel).block body m = .error (.failed e) m₁ →
      x.name ∈ m₁.chain.top.consts →
      ∃ m₂, exec cx (fuel + 1) (.attempt body (some ⟨some x, []⟩) none) m = .ok .normal m₂ ∧
        x.name ∈ m₂.chain.top.consts ∧
        Table.get? m₂.chain.top.vars x.name = some e.toValue) := by
  intro adopted loaded run
  have S := effectInvariant_sound { caught } cx
  obtain ⟨hadopted, hobeys⟩ := hm.adopt hp
  have hloaded : (effectInvariant { caught }).Holds .stmt loaded := holds_of_obeys hobeys
  refine ⟨?_, topLevel_keepsConsts cx hobeys fuel hadopted, ?_, Chain.writesKeepConsts, ?_, ?_⟩
  · have changes := changes_topLevel cx fuel hobeys hadopted hloaded.2
    have hchain : loaded.chain = m.chain := load_chain adopted.2 adopted.1
    have hrun : (m.run cx fuel p).2 = (run (engine cx fuel)).after loaded := verdict_snd _ _
    rw [hrun, ← hchain]
    exact Chain.Changes.keepsConsts changes
  · exact S.throughout (fun _ hobeys _ => keepsConstsHenceforth_of_obeys cx hobeys) fuel hloaded
      fun _ _ G => G.topLevel S.lockstep _ hadopted
  · exact fun c c' name v h => Chain.defineConst_top h
  · intro m m₁ body x e hfailed hconst
    refine ⟨_, exec_attempt_caught cx fuel x hfailed, ?_, ?_⟩
    · show x.name ∈ (m₁.chain.bind x.name e.toValue).top.consts
      rw [Chain.bind_top]
      exact hconst
    · show Table.get? (m₁.chain.bind x.name e.toValue).top.vars x.name = _
      rw [Chain.bind_top]
      exact Table.get?_insert_self _ _ _

/-- An assignment to a constant fails inside a TRY whose CATCH has another name for its variable,
and the constant is still there. -/
theorem constants_kept_unless_caught_assigned :
    let caught : String → Bool := (· == "E")
    let m : Machine := { chain := { root := { vars := [("K", .int 1)], consts := ["K"] } } }
    let p : Program := ⟨[.attempt [.assign (.ofString "K") (.int 2)]
      (some ⟨some (.ofString "E"), []⟩) none]⟩
    m.Obeys (.caughtAmong caught) ∧ (Rule.caughtAmong caught).program p ∧
      Table.get? (m.run {} 9 p).2.chain.root.vars "K" = some (.int 1) := by
  intro caught m p
  have hm : m.Obeys (.caughtAmong caught) := .of_empty rfl rfl rfl
  have hp : (Rule.caughtAmong caught).program p := by decide
  have kept := (constants_kept_unless_caught {} 9 caught m hm p hp).1.root
  exact ⟨hm, hp, (kept "K" (by decide)).2 (by decide)⟩

/-- A CATCH overwrites the constant that CONST has bound before, though its mark stays. -/
theorem constant_overwritten_by_catch :
    let constant : Stmt := .constant (.ofString "E") (.int 1)
    let attempt : Stmt := .attempt [.raise (.str "boom")] (some ⟨some (.ofString "E"), []⟩) none
    let before := ((Machine.start {}).run {} 9 ⟨[constant]⟩).2.chain.root
    let after := ((Machine.start {}).run {} 9 ⟨[constant, attempt]⟩).2.chain.root
    ("E" ∈ before.consts ∧ Table.get? before.vars "E" = some (.int 1)) ∧
    ("E" ∈ after.consts ∧ Table.get? after.vars "E" = some (Failure.thrown "boom").toValue) :=
  ⟨⟨by decide, rfl⟩, by decide, rfl⟩

end BasicScript
