import BasicScript.Proofs.Simulation
import Mathlib.Data.List.Forall2

/-!
# Strict mode only adds failures

Under OPTION EXPLICIT a name that was never declared can neither be read nor be assigned to.  This
file compares the run of a program that starts so with the run of the same program that does not.
The scopes of the two runs differ in their strictness and in what is declared in them, and nothing
but the two checks for undeclared names looks at either.

* `Chain.Relaxes`: the scopes of a run and those of the run that is not strict.
* `Eases`: a write fails over an undeclared name, or it does the same on both sides.
* `strictSimulation`: the scopes stay so until the strict run fails over an undeclared name.
* `strict_only_adds_failures` compares the two runs of a program.

Where a TRY could catch such a failure the two runs would part, and after an OPTION EXPLICIT both of
them would be strict, so the code has neither.
-/

namespace BasicScript

/-- Code has no TRY and no OPTION EXPLICIT. -/
def Rule.uncaughtLenient : Rule where
  allows _
    | .attempt _ => false
    | .optionExplicit => false
    | _ => true

/-- One of the two failures over a name that was never declared. -/
def Failure.IsUndeclared (e : Failure) : Prop :=
  e.kind = .undeclaredVariable ∨ e.kind = .undeclaredAssignment

/-! ## Scopes -/

/-- The second scope is not strict, and it is as the first one but for what is declared. -/
structure Scope.Relaxes (s s' : Scope) : Prop where
  vars : s'.vars = s.vars
  consts : s'.consts = s.consts
  globals : s'.globals = s.globals
  frame : s'.frame = s.frame
  lenient : s'.strict = false

namespace Scope.Relaxes

variable {s s' : Scope} (h : s.Relaxes s')
include h

/-- The lenient scope relaxes itself. -/
theorem alone : s'.Relaxes s' :=
  ⟨rfl, rfl, rfl, rfl, h.lenient⟩

theorem declare (name : String) : (s.declare name).Relaxes (s'.declare name) :=
  ⟨h.vars, h.consts, h.globals, h.frame, h.lenient⟩

/-- What only the strict side declares makes no difference. -/
theorem declare_left (name : String) : (s.declare name).Relaxes s' :=
  ⟨h.vars, h.consts, h.globals, h.frame, h.lenient⟩

theorem write (name : String) (v : Value) : (s.write name v).Relaxes (s'.write name v) :=
  ⟨congrArg (Table.insert · name v) h.vars, h.consts, h.globals, h.frame, h.lenient⟩

theorem bind (name : String) (v : Value) : (s.bind name v).Relaxes (s'.bind name v) :=
  (h.declare name).write name v

/-- The same name becomes a constant on both sides. -/
theorem constant (name : String) :
    ({ s with consts := addName s.consts name } : Scope).Relaxes
      { s' with consts := addName s'.consts name } :=
  ⟨h.vars, congrArg (addName · name) h.consts, h.globals, h.frame, h.lenient⟩

theorem mark (name : String) :
    ({ s with globals := addName s.globals name } : Scope).Relaxes
      { s' with globals := addName s'.globals name } :=
  ⟨h.vars, h.consts, congrArg (addName · name) h.globals, h.frame, h.lenient⟩

/-- Binding the same entries on both sides. -/
theorem bindAll (entries : Table Value) : (s.bindAll entries).Relaxes (s'.bindAll entries) := by
  unfold Scope.bindAll
  induction entries generalizing s s' with
  | nil => exact h
  | cons e rest ih => exact ih (h.bind e.1 e.2)

end Scope.Relaxes

namespace Chain

/-- No scope of the second chain is strict, and the chains are the same but for what is declared. -/
structure Relaxes (c c' : Chain) : Prop where
  inner : List.Forall₂ Scope.Relaxes c.inner c'.inner
  root : c.root.Relaxes c'.root

/-! ## What is seen of scopes -/

section Lists

variable {root root' : Scope} {inner inner' : List Scope}
  (hinner : List.Forall₂ Scope.Relaxes inner inner') (hroot : root.Relaxes root')
include hinner

/-- The lenient scopes relax themselves, one by one. -/
theorem Relaxes.forall₂_alone : List.Forall₂ Scope.Relaxes inner' inner' := by
  induction hinner with
  | nil => exact .nil
  | cons head _ ih => exact .cons head.alone ih

include hroot

/-- Strictness plays no part in finding a value. -/
theorem lookupIn_relaxed (name : String) :
    lookupIn root' name inner' = lookupIn root name inner := by
  induction hinner with
  | nil => exact congrArg (Table.get? · name) hroot.vars
  | cons head _ ih =>
    unfold lookupIn
    rw [head.globals, head.vars, hroot.vars, ih]

/-- Strictness plays no part in finding out whether a name is a constant. -/
theorem isConstIn_relaxed (name : String) :
    isConstIn root' name inner' = isConstIn root name inner := by
  induction hinner with
  | nil =>
    unfold isConstIn
    rw [hroot.consts]
  | cons head _ ih =>
    unfold isConstIn
    rw [head.globals, head.consts, head.vars, hroot.consts, ih]

/-- Strictness plays no part in finding out whether a frame binds a name. -/
theorem bindsInFrame_relaxed (name : String) :
    bindsInFrame root' name inner' = bindsInFrame root name inner := by
  induction hinner with
  | nil =>
    unfold bindsInFrame
    rw [hroot.vars, hroot.globals]
  | cons head _ ih =>
    unfold bindsInFrame
    rw [head.globals, head.vars, head.frame, ih]

end Lists

namespace Relaxes

variable {c c' : Chain} (h : c.Relaxes c')
include h

/-- The lenient scopes of a chain relax themselves. -/
theorem alone : c'.Relaxes c' :=
  ⟨forall₂_alone h.inner, h.root.alone⟩

/-- Both sides find the same values. -/
theorem lookup? : c'.lookup? = c.lookup? :=
  funext fun name => lookupIn_relaxed h.inner h.root name

/-- Both sides have the same constants. -/
theorem isConst : c'.isConst = c.isConst :=
  funext fun name => isConstIn_relaxed h.inner h.root name

/-- A lambda keeps the same bindings on both sides. -/
theorem snapshot : c'.snapshot = c.snapshot := by
  obtain ⟨inner, root⟩ := c
  obtain ⟨inner', root'⟩ := c'
  obtain ⟨hinner, hroot⟩ := h
  unfold Chain.snapshot
  dsimp only at hinner hroot ⊢
  induction hinner with
  | nil => exact hroot.vars
  | cons head _ ih =>
    rw [List.foldr_cons, List.foldr_cons, ih, head.vars]

/-- The innermost scopes are related. -/
theorem top : c.top.Relaxes c'.top := by
  obtain ⟨inner, root⟩ := c
  obtain ⟨inner', root'⟩ := c'
  obtain ⟨hinner, hroot⟩ := h
  cases hinner with
  | nil => exact hroot
  | cons head _ => exact head

/-- A change to the innermost scope that keeps scopes related. -/
theorem modifyTop {f f' : Scope → Scope} (hf : ∀ {s s'}, s.Relaxes s' → (f s).Relaxes (f' s')) :
    (c.modifyTop f).Relaxes (c'.modifyTop f') := by
  obtain ⟨inner, root⟩ := c
  obtain ⟨inner', root'⟩ := c'
  obtain ⟨hinner, hroot⟩ := h
  cases hinner with
  | nil => exact ⟨.nil, hf hroot⟩
  | cons head tail => exact ⟨.cons (hf head) tail, hroot⟩

theorem push {s s' : Scope} (hs : s.Relaxes s') : (c.push s).Relaxes (c'.push s') :=
  ⟨.cons hs h.inner, h.root⟩

theorem pop : c.pop.Relaxes c'.pop := by
  obtain ⟨inner, root⟩ := c
  obtain ⟨inner', root'⟩ := c'
  obtain ⟨hinner, hroot⟩ := h
  cases hinner with
  | nil => exact ⟨.nil, hroot⟩
  | cons _ tail => exact ⟨tail, hroot⟩

theorem bind (name : String) (v : Value) : (c.bind name v).Relaxes (c'.bind name v) :=
  h.modifyTop fun hs => hs.bind name v

/-- A GLOBAL statement declares a name in the root only under OPTION EXPLICIT. -/
theorem addGlobal (name : String) : (c.addGlobal name).Relaxes (c'.addGlobal name) := by
  have marked := h.modifyTop fun hs => hs.mark name
  have hlenient :
      (c'.modifyTop fun s => { s with globals := Scope.addName s.globals name }).top.strict =
        false := marked.top.lenient
  unfold Chain.addGlobal
  dsimp only
  rw [hlenient]
  split
  · exact ⟨marked.inner, marked.root.declare_left name⟩
  · exact marked

/-- A new block takes its strictness from the scopes around it. -/
theorem newBlock : c.newBlock.Relaxes c'.newBlock :=
  ⟨rfl, rfl, rfl, rfl, h.top.lenient⟩

/-- A new frame takes its strictness from the scopes around it. -/
theorem newFrame : c.newFrame.Relaxes c'.newFrame :=
  ⟨rfl, rfl, rfl, rfl, h.top.lenient⟩

end Relaxes

end Chain

/-! ## Writes -/

/-- Two outcomes, the first one of a strict run: it is a failure over an undeclared name, or the two
outcomes are alike. -/
inductive Eases {α : Type} (rel : α → α → Prop) : Except Failure α → Except Failure α → Prop where
  | ok {a a' : α} (alike : rel a a') : Eases rel (.ok a) (.ok a')
  | error (e : Failure) : Eases rel (.error e) (.error e)
  | undeclared {e : Failure} {r' : Except Failure α} (undeclared : e.IsUndeclared)
    (alone : ∀ a', r' = .ok a' → rel a' a') : Eases rel (.error e) r'

namespace Eases

variable {α β : Type} {rel : α → α → Prop} {rel' : β → β → Prop} {r r' : Except Failure α}

/-- What comes out where there is nothing strict. -/
theorem of_self (h : Eases rel r r) (a : α) (ha : r = .ok a) : rel a a := by
  subst ha
  cases h with
  | ok alike => exact alike

/-- What is made of related results is related. -/
theorem map {f f' : α → β} (h : Eases rel r r') (hf : ∀ {a a'}, rel a a' → rel' (f a) (f' a'))
    (hf' : ∀ {a'}, rel a' a' → rel' (f' a') (f' a')) : Eases rel' (r.map f) (r'.map f') := by
  cases h with
  | ok alike => exact .ok (hf alike)
  | error e => exact .error e
  | undeclared undeclared alone =>
    refine .undeclared undeclared fun b hb => ?_
    cases r' with
    | error e => cases hb
    | ok a' =>
      cases hb
      exact hf' (alone a' rfl)

end Eases

namespace Chain

variable {root root' : Scope} {inner inner' : List Scope} {c c' : Chain}

/-- A write to the root.  The strict root may refuse a name that was never declared. -/
theorem setRoot_eases (hroot : root.Relaxes root') (strict : Bool) (name : String) (v : Value) :
    Eases Scope.Relaxes (setRoot root strict name v) (setRoot root' false name v) := by
  unfold setRoot
  rw [hroot.consts]
  split
  · exact .error _
  · have written := hroot.write name v
    split
    · exact .undeclared (.inr rfl) fun _ h => by cases h; exact written.alone
    · exact .ok written

/-- An assignment to the scope that it reaches, by induction on the scopes. -/
theorem assignIn_eases (hinner : List.Forall₂ Scope.Relaxes inner inner')
    (hroot : root.Relaxes root') (name : String) (v : Value) :
    Eases Relaxes (assignIn root name v inner) (assignIn root' name v inner') := by
  induction hinner with
  | nil =>
    unfold assignIn
    rw [hroot.globals, hroot.lenient]
    split
    · exact (setRoot_eases hroot _ name v).map (fun h => ⟨.nil, h⟩) fun h => ⟨.nil, h⟩
    · exact .ok ⟨.nil, hroot.write name v⟩
  | cons head tail ih =>
    unfold assignIn
    rw [head.globals, head.vars, head.frame, head.lenient, bindsInFrame_relaxed tail hroot]
    split
    · exact (setRoot_eases hroot _ name v).map (fun h => ⟨.cons head tail, h⟩) fun h =>
        ⟨.cons head.alone (Relaxes.forall₂_alone tail), h⟩
    · split
      · exact .ok ⟨.cons (head.write name v) tail, hroot⟩
      · exact ih.map (fun h => h.push head) fun h => h.push head.alone

/-- **An assignment does the same on both sides, or the strict side refuses the name.** -/
theorem set_eases (h : c.Relaxes c') (name : String) (v : Value) :
    Eases Relaxes (c.set name v) (c'.set name v) := by
  unfold set
  rw [h.top.globals, h.top.lenient, h.isConst]
  split
  · exact (setRoot_eases h.root _ name v).map (fun hroot => ⟨h.inner, hroot⟩) fun hroot =>
      ⟨h.alone.inner, hroot⟩
  · split
    · exact .error _
    · have assigned := assignIn_eases h.inner h.root name v
      have alone := (assignIn_eases h.alone.inner h.alone.root name v).of_self
      split
      · exact .undeclared (.inr rfl) alone
      · exact assigned

/-- A LOCAL does the same on both sides. -/
theorem defineLocal_eases (h : c.Relaxes c') (name : String) (v : Value) :
    Eases Relaxes (c.defineLocal name v) (c'.defineLocal name v) := by
  unfold defineLocal
  rw [h.top.consts]
  split
  · exact .error _
  · exact .ok (h.bind name v)

/-- A CONST does the same on both sides. -/
theorem defineConst_eases (h : c.Relaxes c') (name : String) (v : Value) :
    Eases Relaxes (c.defineConst name v) (c'.defineConst name v) := by
  unfold defineConst
  rw [h.top.consts]
  split
  · exact .error _
  · exact .ok (h.modifyTop fun hs => (hs.constant name).bind name v)

/-- A read gives the same on both sides, or the strict side refuses the name. -/
theorem get_eases (h : c.Relaxes c') (name : String) : Eases Eq (c.get name) (c'.get name) := by
  unfold get
  rw [h.lookup?, h.top.lenient]
  split
  · exact .ok rfl
  · split
    · exact .undeclared (.inl rfl) fun _ _ => rfl
    · exact .ok rfl

end Chain

/-! ## The two runs -/

/-- The scopes of the second run are those of the first one, but none of them is strict; the first
run may fail over an undeclared name. -/
def strictSimulation : Simulation where
  rule := .uncaughtLenient
  chain := Chain.Relaxes
  journal j j' := j' = j
  extra := Failure.IsUndeclared

/-- A write that fails on the strict side over an undeclared name only. -/
theorem strictSimulation_carries {f : Chain → Except Failure Chain}
    (hf : ∀ {c c'}, c.Relaxes c' → Eases Chain.Relaxes (f c) (f c')) :
    strictSimulation.Carries (Chain.tryWrite f) := by
  intro c c' h
  have eased := hf h
  unfold Chain.tryWrite
  generalize f c = r, f c' = r' at eased
  cases eased with
  | ok alike => exact .same alike
  | error e => exact .same h
  | undeclared undeclared alone =>
    cases r' with
    | ok c₁' => exact .extra undeclared (alone c₁' rfl)
    | error e => exact .extra undeclared h.alone

/-- Reading a variable keeps the scopes related. -/
theorem strictSimulation_get (name : String) :
    strictSimulation.Carries fun c => (c.get name, c) := by
  intro c c' h
  have eased := Chain.get_eases h name
  dsimp only
  generalize c.get name = r, c'.get name = r' at eased
  cases eased with
  | ok same =>
    cases same
    exact .same h
  | error e => exact .same h
  | undeclared undeclared => exact .extra undeclared h.alone

/-- A declaration that goes to the root may fail on the strict side only. -/
theorem strictSimulation_define (name : String) (v : Value) :
    strictSimulation.Carries fun c => (c.define name v).swap := by
  intro c c' h
  dsimp only
  unfold Chain.define
  rw [h.isConst, h.top.globals]
  split
  · exact .same h
  · split
    · have declared := h.modifyTop fun hs => hs.declare name
      have eased := Chain.setRoot_eases declared.root (c.modifyTop (·.declare name)).top.strict
        name v
      dsimp only
      rw [declared.top.lenient]
      generalize Chain.setRoot _ _ name v = r, Chain.setRoot _ false name v = r' at eased
      cases eased with
      | ok alike => exact .same ⟨declared.inner, alike⟩
      | error e => exact .same declared
      | undeclared undeclared alone =>
        cases r' with
        | ok root' => exact .extra undeclared ⟨declared.alone.inner, alone root' rfl⟩
        | error e => exact .extra undeclared declared.alone
    · exact .same (h.bind name v)

/-- The two contexts may differ in their strictness and in nothing else. -/
theorem strictSimulation_sound {cx cx' : Context} (hhost : cx'.host = cx.host)
    (hdebug : cx'.config.debug = cx.config.debug)
    (helements : cx'.config.maxElements = cx.config.maxElements)
    (hdepth : cx'.config.maxDepth = cx.config.maxDepth) : strictSimulation.Sound cx cx' where
  host := hhost
  maxElements := helements
  maxDepth := hdepth
  debugPrint := fun _ _ => hdebug
  uncaught := fun _ _ _ h => absurd h Bool.false_ne_true
  log := by rintro j _ events rfl; rfl
  note := by
    rintro j _ text rfl
    rw [hdebug]
    rfl
  journal_alone := fun _ => rfl
  chain_alone := Chain.Relaxes.alone
  lookup? := Chain.Relaxes.lookup?
  isConst := Chain.Relaxes.isConst
  snapshot := Chain.Relaxes.snapshot
  vars := fun h => h.top.vars
  get := strictSimulation_get
  bind := fun name v h => h.bind name v
  optionExplicit := nofun
  addGlobal := fun name h => h.addGlobal name
  define := strictSimulation_define
  set := fun name v => strictSimulation_carries fun h => Chain.set_eases h name v
  defineLocal := fun name v => strictSimulation_carries fun h => Chain.defineLocal_eases h name v
  defineConst := fun name v => strictSimulation_carries fun h => Chain.defineConst_eases h name v
  openBlock := fun h => h.push h.newBlock
  openResource := fun name v h => h.push (h.newBlock.bind name v)
  openFrame := fun h => h.push h.newFrame
  close := Chain.Relaxes.pop
  openLambda := by
    intro c c' bindings h
    refine ⟨.cons (Scope.Relaxes.bindAll ?_ bindings) .nil, h.root⟩
    exact ⟨rfl, rfl, rfl, rfl, h.root.lenient⟩
  closeLambda := fun h h₁ => ⟨h.inner, h₁.root⟩

/-- **Strict mode only adds failures.**  A program without TRY and OPTION EXPLICIT is run on a new
machine with any host and any settings, once strict and once not.  If the strict run does not fail
over an undeclared name, then with the same fuel the other run has the same verdict, and it leaves
the same bindings of the root and the same journal: printed lines, notes, calls of natives and
writes that hooks have seen. -/
theorem strict_only_adds_failures (host : Host) (config : Config) (fuel : Nat) (p : Program)
    (hp : Rule.uncaughtLenient.program p) :
    let strict := { config with strict := true }
    let lenient := { config with strict := false }
    let r := (Machine.start strict).run ⟨host, strict⟩ fuel p
    let r' := (Machine.start lenient).run ⟨host, lenient⟩ fuel p
    (∀ e, r.1 = .failed e → ¬ e.IsUndeclared) →
      r'.1 = r.1 ∧ r'.2.chain.root.vars = r.2.chain.root.vars ∧ r'.2.journal = r.2.journal := by
  intro strict lenient r r' hr
  have S : strictSimulation.Sound ⟨host, strict⟩ ⟨host, lenient⟩ :=
    strictSimulation_sound rfl rfl rfl rfl
  have start : strictSimulation.Near (Machine.start strict) (Machine.start lenient) :=
    .intro (Machine.start lenient).chain _ (.start _ strict) ⟨.nil, rfl, rfl, rfl, rfl, rfl⟩ rfl
  rcases S.run fuel start p hp with ⟨e, m, failed, undeclared⟩ | ⟨same, near⟩
  · exact absurd undeclared (hr e (congrArg (·.1) failed))
  · exact ⟨same, near.chain.root.vars, near.journal⟩

/-- A SUB that marks a name GLOBAL and assigns to it, which only the strict run declares in the
root, and then a failure of another kind. -/
def globalWriter : Program :=
  ⟨[.procedure (.sub (.ofString "F")
      ⟨[], [.globals [.ofString "Y"], .assign (.ofString "Y") (.int 3)]⟩),
    .call (.ofString "F") [] [], .raise (.str "stop")]⟩

theorem strict_only_adds_failures_globalWriter :
    let strict : Config := { strict := true }
    let lenient : Config := { strict := false }
    let r := (Machine.start strict).run ⟨{}, strict⟩ 9 globalWriter
    let r' := (Machine.start lenient).run ⟨{}, lenient⟩ 9 globalWriter
    Rule.uncaughtLenient.program globalWriter ∧ r.1 = .failed (.thrown "stop") ∧
      r.2.chain.root.declared = ["Y"] ∧ r'.2.chain.root.declared = [] ∧
      r'.1 = .failed (.thrown "stop") ∧ r'.2.chain.root.vars = r.2.chain.root.vars := by
  intro strict lenient r r'
  have hp : Rule.uncaughtLenient.program globalWriter := by decide
  have hstrict : r.1 = .failed (.thrown "stop") := rfl
  have hkind : ∀ e, r.1 = .failed e → ¬ e.IsUndeclared := by
    intro e he
    rw [hstrict] at he
    cases he
    rintro (h | h) <;> cases h
  have same := strict_only_adds_failures {} {} 9 globalWriter hp hkind
  exact ⟨hp, hstrict, rfl, rfl, same.1.trans hstrict, same.2.1⟩

end BasicScript
