import BasicScript.Proofs.Assignment

/-!
# Writes that fail

A write may be refused: the name is a constant, or it was never declared and OPTION EXPLICIT asks for
that.  An assignment, a LOCAL and a CONST that are refused leave all scopes as they were.  LET and the
statements that declare a variable as it does are an exception where the name is marked GLOBAL: they
declare the name in the innermost scope first and look at the root afterwards.  If the root refuses
the write, the declaration stays, and reads of the name no longer fail.

* `WriteKind`: the four ways of writing a name.
* `Chain.MarkedUnknown`: the scopes in which a failure leaves something behind.
* `failed_write_leaves_at_most_declaration`: in these scopes and by this one write alone does it.
* `failed_define_leaves_declaration`: a name that is declared by a write that failed.
-/

namespace BasicScript

/-- The ways of writing a name: an assignment, a declaration as by LET, a LOCAL and a CONST. -/
inductive WriteKind where
  | assign
  | define
  | defineLocal
  | defineConst
deriving DecidableEq

/-- Writes a name. -/
def WriteKind.write (kind : WriteKind) (name : String) (v : Value) : Run Unit :=
  match kind with
  | .assign => Run.writeChain (·.set name v)
  | .define => Run.define name v
  | .defineLocal => Run.writeChain (·.defineLocal name v)
  | .defineConst => Run.writeChain (·.defineConst name v)

/-- The innermost scope lies inside the root, asks for declarations and marks a name GLOBAL that it
has not declared itself, and the root has neither a variable nor a declaration of the name. -/
structure Chain.MarkedUnknown (c : Chain) (name : String) : Prop where
  inside : c.inner ≠ []
  strict : c.top.strict = true
  marked : name ∈ c.top.globals
  undeclared : name ∉ c.top.declared
  unknown : c.root.knows name = false
  fresh : name ∉ c.root.consts

/-- A write that returns the scopes or a failure leaves no trace when it fails. -/
theorem Run.writeChain_error {f : Chain → Except Failure Chain} {m m' : Machine} {h : Halt}
    (hfailed : Run.writeChain f m = .error h m') : m' = m := by
  rw [Run.writeChain_eq] at hfailed
  unfold Run.onChain Chain.tryWrite at hfailed
  cases hf : f m.chain with
  | ok c =>
    rw [hf] at hfailed
    cases hfailed
  | error e =>
    rw [hf] at hfailed
    cases hfailed
    rfl

namespace Chain

variable {c : Chain} {name : String} {v : Value}

/-- Declaring a name again changes nothing. -/
theorem declare_of_mem {s : Scope} (h : name ∈ s.declared) : s.declare name = s := by
  unfold Scope.declare Scope.addName
  rw [if_pos h]

/-- A change of the innermost scope that is none changes nothing. -/
theorem modifyTop_of_eq {f : Scope → Scope} (h : f c.top = c.top) : c.modifyTop f = c := by
  obtain ⟨_ | ⟨s, rest⟩, root⟩ := c
  · exact congrArg (Chain.mk []) h
  · exact congrArg (fun t => Chain.mk (t :: rest) root) h

/-- A declaration that fails leaves the scopes as they are, or else it has met a name that is marked
and unknown. -/
theorem define_eq_error {c' : Chain} {e : Failure} (h : c.define name v = (c', .error e)) :
    c' = c ∨ c.MarkedUnknown name := by
  unfold define at h
  split at h
  · cases h
    exact .inl rfl
  next hconst =>
  rw [Bool.not_eq_true] at hconst
  split at h
  · next hmark =>
    dsimp only at h
    split at h
    · cases h
    · next e' hroot =>
      cases h
      by_cases hdeclared : name ∈ c.top.declared
      · exact .inl (modifyTop_of_eq (declare_of_mem hdeclared))
      right
      obtain ⟨_ | ⟨s, rest⟩, root⟩ := c
      · -- The root itself has declared the name by now, and it is no constant.
        have hfresh : name ∉ (root.declare name).consts := of_decide_eq_false hconst
        have hknows : (root.declare name).knows name = true := by
          simp [Scope.knows, Scope.declare, Scope.mem_addName]
        change setRoot (root.declare name) _ name v = _ at hroot
        unfold setRoot at hroot
        rw [if_neg hfresh, hknows] at hroot
        simp at hroot
      · have hmark' : name ∈ s.globals := hmark
        rw [isConst_of_marked hmark'] at hconst
        have hfresh : name ∉ root.consts := of_decide_eq_false hconst
        change setRoot root s.strict name v = _ at hroot
        unfold setRoot at hroot
        rw [if_neg hfresh] at hroot
        split at hroot
        · next hrefused =>
          rw [Bool.and_eq_true, Bool.not_eq_true'] at hrefused
          exact ⟨List.cons_ne_nil s rest, hrefused.1, hmark, hdeclared, hrefused.2, hfresh⟩
        · cases hroot
  · cases h

section MarkedUnknown

variable (h : c.MarkedUnknown name)
include h

/-- A declaration of such a name fails and leaves the name declared. -/
theorem MarkedUnknown.define :
    c.define name v =
      (c.modifyTop (·.declare name), .error (.undeclaredAssignment name)) := by
  obtain ⟨_ | ⟨s, rest⟩, root⟩ := c
  · exact absurd rfl h.inside
  have hmark : name ∈ s.globals := h.marked
  have hconst : isConst ⟨s :: rest, root⟩ name = false :=
    (isConst_of_marked hmark).trans (decide_eq_false h.fresh)
  have hroot : setRoot root s.strict name v = .error (.undeclaredAssignment name) := by
    have hstrict : s.strict = true := h.strict
    have hunknown : root.knows name = false := h.unknown
    unfold setRoot
    rw [if_neg h.fresh, hstrict, hunknown]
    rfl
  unfold Chain.define
  rw [hconst, if_neg Bool.false_ne_true, if_pos h.marked]
  dsimp only [modifyTop, top, List.headD, Scope.declare]
  rw [hroot]

/-- A marked name that is unknown in the root has no value. -/
theorem MarkedUnknown.lookup?_eq : c.lookup? name = none := by
  obtain ⟨_ | ⟨s, rest⟩, root⟩ := c
  · exact absurd rfl h.inside
  · have hmark : name ∈ s.globals := h.marked
    have hunbound := (Bool.or_eq_false_iff.mp h.unknown).2
    rw [lookup?_of_marked hmark]
    simpa [Table.contains] using hunbound

/-- A read of the name fails, unless some scope has declared it. -/
theorem MarkedUnknown.get (hdeclared : c.isDeclared name = false) :
    c.get name = .error (.undeclaredVariable name) := by
  unfold Chain.get
  rw [h.lookup?_eq, h.strict, hdeclared]
  rfl

/-- A declaration that has failed makes reads of the name succeed. -/
theorem MarkedUnknown.get_declared : (c.modifyTop (·.declare name)).get name = .ok .nil := by
  have hnone := h.lookup?_eq
  obtain ⟨_ | ⟨s, rest⟩, root⟩ := c
  · exact absurd rfl h.inside
  have hmark : name ∈ (s.declare name).globals := h.marked
  have hlookup : lookup? ⟨s.declare name :: rest, root⟩ name = none := by
    rw [lookup?_of_marked hmark]
    exact (lookup?_of_marked (s := s) h.marked).symm.trans hnone
  have hdeclared : isDeclared ⟨s.declare name :: rest, root⟩ name = true := by
    simp [isDeclared, Scope.knows, Scope.declare, Scope.mem_addName]
  show Chain.get ⟨s.declare name :: rest, root⟩ name = .ok .nil
  unfold Chain.get
  rw [hlookup, hdeclared]
  simp

end MarkedUnknown

end Chain

/-- **What a write that fails leaves behind.**  Whatever the scopes are, a write of any kind that
fails leaves the machine as it was, unless it is a declaration as by LET of a name that the innermost
scope marks GLOBAL and that is unknown there and in the root, under OPTION EXPLICIT.  Such a
declaration does fail, and it leaves the name declared in the innermost scope and all else as it was.
From then on a read of the name yields the empty value, where it failed before if no other scope had
declared the name. -/
theorem failed_write_leaves_at_most_declaration (name : String) (v : Value) (m : Machine) :
    (∀ (kind : WriteKind) (h : Halt) (m' : Machine), kind.write name v m = .error h m' →
      m' = m ∨ kind = .define ∧ m.chain.MarkedUnknown name) ∧
    (m.chain.MarkedUnknown name →
      let declared := m.chain.modifyTop (·.declare name)
      WriteKind.define.write name v m =
          .error (.failed (.undeclaredAssignment name)) { m with chain := declared } ∧
        name ∉ m.chain.top.declared ∧ name ∈ declared.top.declared ∧
        declared.get name = .ok .nil ∧
        (m.chain.isDeclared name = false →
          m.chain.get name = .error (.undeclaredVariable name))) := by
  refine ⟨fun kind h m' hfailed => ?_, fun hunknown => ?_⟩
  · cases kind with
    | assign => exact .inl (Run.writeChain_error (f := (·.set name v)) hfailed)
    | defineLocal => exact .inl (Run.writeChain_error (f := (·.defineLocal name v)) hfailed)
    | defineConst => exact .inl (Run.writeChain_error (f := (·.defineConst name v)) hfailed)
    | define =>
      change Run.define name v m = .error h m' at hfailed
      rcases hdefine : m.chain.define name v with ⟨c', e | ⟨⟩⟩
      · rw [Run.define_of_error hdefine] at hfailed
        cases hfailed
        rcases Chain.define_eq_error hdefine with rfl | hunknown
        · exact .inl rfl
        · exact .inr ⟨rfl, hunknown⟩
      · rw [Run.define_of_ok hdefine] at hfailed
        cases hfailed
  · refine ⟨?_, hunknown.undeclared, ?_, hunknown.get_declared, hunknown.get⟩
    · exact Run.define_of_error hunknown.define
    · rw [Chain.modifyTop_declare_top]
      exact Scope.mem_addName.mpr (.inl rfl)

/-- The scopes inside a procedure that has marked `X` GLOBAL before OPTION EXPLICIT was in force. -/
def markedBeforeExplicit : Chain :=
  let frame := Chain.push {} (Chain.newFrame {})
  (frame.addGlobal "X").modifyTop ({ · with strict := true })

/-- An assignment to the name fails there without a trace, and a declaration leaves it declared. -/
theorem failed_write_leaves_at_most_declaration_marked :
    let m : Machine := { chain := markedBeforeExplicit }
    let declared := markedBeforeExplicit.modifyTop (·.declare "X")
    WriteKind.assign.write "X" (.int 1) m = .error (.failed (.undeclaredAssignment "X")) m ∧
      markedBeforeExplicit.MarkedUnknown "X" ∧
      WriteKind.define.write "X" (.int 1) m =
        .error (.failed (.undeclaredAssignment "X")) { m with chain := declared } ∧
      "X" ∈ declared.top.declared := by
  intro m declared
  have hunknown : markedBeforeExplicit.MarkedUnknown "X" :=
    ⟨List.cons_ne_nil _ _, rfl, by decide, by decide, rfl, by decide⟩
  have hassign : WriteKind.assign.write "X" (.int 1) m =
    .error (.failed (.undeclaredAssignment "X")) m := rfl
  have htrace := failed_write_leaves_at_most_declaration "X" (.int 1) m
  rcases htrace.1 .assign _ m hassign with - | ⟨himpossible, -⟩
  · exact ⟨hassign, hunknown, (htrace.2 hunknown).1, (htrace.2 hunknown).2.2.1⟩
  · cases himpossible

/-- A declaration fails and leaves a trace: the name counts as declared afterwards, and a read of it
that failed before yields the empty value. -/
theorem failed_define_leaves_declaration :
    let c := markedBeforeExplicit
    let c' := (c.define "X" (.int 1)).1
    (c.define "X" (.int 1)).2 = .error (.undeclaredAssignment "X") ∧
      c.top.declared = [] ∧ c'.top.declared = ["X"] ∧
      c.get "X" = .error (.undeclaredVariable "X") ∧ c'.get "X" = .ok .nil :=
  ⟨rfl, rfl, rfl, rfl, rfl⟩

end BasicScript
