import BasicScript.Proofs.Invariant

/-!
# Computations that finish

A run of code without FOR, WHILE, DO and REPEAT is bounded by two numbers.  Inside a frame it works
on smaller and smaller code.  A call starts with code that may be as large as any, but it leaves one
call less to be made; so the number of calls that are left comes first, and the size of the code
second.

* `Routine.Modest`, `Machine.Tame`: all code that a machine may run into is smaller than a bound,
  and only some calls are left.
* `Run.Finishes`: a computation ends, and not for want of fuel, and leaves such a machine behind.
  The elementary actions do, and whatever is put together from computations that do.
-/

namespace BasicScript

/-- Code has no FOR, WHILE, DO and REPEAT. -/
def Rule.loopFree : Rule where
  allows _
    | .loop _ => false
    | _ => true

open Rule (loopFree)

/-! ## Loaded code of bounded size -/

/-- A routine without loops whose body and defaults are smaller than a bound. -/
structure Routine.Modest (N : Nat) (b : Body) (r : Routine) : Prop where
  loopFree : loopFree.routine b r
  body : sizeOf r.body < N
  defaults : ∀ p ∈ r.params, sizeOf p.init < N

namespace Routine.Modest

variable {N : Nat} {b : Body} {r : Routine}

/-- A routine is modest if it is a part of smaller code. -/
theorem of_sizeOf (hr : Rule.loopFree.routine b r) (hsize : sizeOf r ≤ N) : r.Modest N b := by
  obtain ⟨params, body⟩ := r
  rw [Routine.mk.sizeOf_spec] at hsize
  refine ⟨hr, by dsimp only; omega, ?_⟩
  intro p hp
  obtain ⟨name, init⟩ := p
  have hmem : sizeOf (Binder.mk name init) < sizeOf params := List.sizeOf_lt_of_mem hp
  rw [Binder.mk.sizeOf_spec] at hmem
  dsimp only
  omega

/-- `THIS` in front of the parameters leaves a routine modest. -/
theorem asMethod {q : Procedure} (h : q.Has (Routine.Modest N)) :
    (Machine.asMethod q).Has (Routine.Modest N) := by
  have extended : ∀ {b : Body} {params : List Binder} {body : List Stmt},
      Routine.Modest N b ⟨params, body⟩ →
      Routine.Modest N b ⟨⟨Ident.ofString "THIS", none⟩ :: params, body⟩ := by
    intro b params body h
    refine ⟨h.loopFree, h.body, ?_⟩
    intro p hp
    rcases List.mem_cons.mp hp with rfl | hp
    · have hbody : sizeOf body < N := h.body
      have hpos : 0 < sizeOf body := by cases body <;> simp only [List.nil.sizeOf_spec,
        List.cons.sizeOf_spec] <;> omega
      rw [Option.none.sizeOf_spec]
      omega
    · exact h.defaults p hp
  rcases q with ⟨_, ⟨params, body⟩⟩ | ⟨_, _, ⟨params, body⟩⟩
  · exact extended h
  · exact extended h

end Routine.Modest

/-- A statement without loops declares modest procedures only. -/
theorem Stmt.declares_modest {N : Nat} {p : Place} {s : Stmt} (hs : loopFree.stmt p s)
    (hsize : sizeOf s ≤ N) : s.Declares (Routine.Modest N) := by
  have ofProcedure : ∀ q : Procedure, loopFree.procedure q → sizeOf q ≤ N →
      q.Has (Routine.Modest N) := by
    rintro (⟨_, r⟩ | ⟨_, _, r⟩) hq hsize
    · rw [Procedure.sub.sizeOf_spec] at hsize
      exact .of_sizeOf hq (by omega)
    · rw [Procedure.function.sizeOf_spec] at hsize
      exact .of_sizeOf hq (by omega)
  have hparts := (Bool.and_eq_true_iff.mp hs).2
  cases s with
  | procedure q =>
    rw [Stmt.procedure.sizeOf_spec] at hsize
    exact ofProcedure q hparts (by omega)
  | typeBlock d =>
    obtain ⟨name, parent, fields, methods⟩ := d
    rw [Stmt.typeBlock.sizeOf_spec, TypeDecl.mk.sizeOf_spec] at hsize
    intro q hq
    have hmem : sizeOf q < sizeOf methods := List.sizeOf_lt_of_mem hq
    exact Routine.Modest.asMethod (ofProcedure q (Rule.procedure_of_mem_procedures hparts q hq)
      (by omega))
  | _ => trivial

/-- A machine that has loaded modest routines only, with at most `k` calls left to be nested. -/
structure Machine.Tame (cx : Context) (N k : Nat) (m : Machine) : Prop where
  loads : m.Loads (Routine.Modest N)
  depth : cx.config.maxDepth ≤ m.depth + k

/-- The scopes have no say in how many calls are left. -/
theorem Machine.Tame.withChain {cx : Context} {N k : Nat} {m : Machine} (h : m.Tame cx N k)
    (c : Chain) : ({ m with chain := c } : Machine).Tame cx N k :=
  ⟨⟨h.loads.subs, h.loads.functions, h.loads.lambdas⟩, h.depth⟩

/-! ## Computations that finish -/

variable {α β : Type} {cx : Context} {N k n : Nat}

/-- A computation has ended, and not for want of fuel. -/
inductive Ended (cx : Context) (N k : Nat) : EStateM.Result Halt Machine α → Prop where
  | ok {a : α} {m : Machine} (tame : m.Tame cx N k) : Ended cx N k (.ok a m)
  | error {h : Halt} {m : Machine} (halts : h ≠ .exhausted) (tame : m.Tame cx N k) :
    Ended cx N k (.error h m)

/-- From every tame machine a computation ends, and not for want of fuel. -/
def Run.Finishes (cx : Context) (N k : Nat) (x : Run α) : Prop :=
  ∀ m : Machine, m.Tame cx N k → Ended cx N k (x m)

namespace Run.Finishes

/-- A value that is there at once. -/
theorem pure (a : α) : (Pure.pure a : Run α).Finishes cx N k :=
  fun _ hm => .ok hm

/-- A halt that is not for want of fuel. -/
theorem halt {h : Halt} (hh : h ≠ .exhausted) : (throw h : Run α).Finishes cx N k :=
  fun _ hm => .error hh hm

/-- A failure ends a computation. -/
theorem fail (e : Failure) : (Run.fail e : Run α).Finishes cx N k :=
  halt nofun

/-- What needs no machine has ended already. -/
theorem lift (r : Except Failure α) : (Run.lift r).Finishes cx N k := by
  cases r with
  | ok a => exact pure a
  | error e => exact fail e

/-- What comes after a computation, be it that it has ended with a result or halted. -/
theorem resume {f : α → Run β} {onHalt : Halt → Run β} {r : EStateM.Result Halt Machine α}
    (h : Ended cx N k r) (hf : ∀ a, (f a).Finishes cx N k)
    (hhalt : ∀ h, h ≠ .exhausted → (onHalt h).Finishes cx N k) :
    Ended cx N k (Lockstep.resume f onHalt r) := by
  cases h with
  | ok tame => exact hf _ _ tame
  | error halts tame => exact hhalt _ halts _ tame

/-- **One computation after another.** -/
theorem bind {x : Run α} {f : α → Run β} (hx : x.Finishes cx N k)
    (hf : ∀ a, (f a).Finishes cx N k) : (x >>= f).Finishes cx N k := by
  intro m hm
  rw [Lockstep.bind_apply]
  exact resume (hx m hm) hf fun _ => halt

theorem look {f : Machine → Run α} (h : ∀ m : Machine, m.Tame cx N k → (f m).Finishes cx N k) :
    (get >>= f).Finishes cx N k :=
  fun m hm => h m hm m hm

theorem modify {f : Machine → Machine} (h : ∀ m : Machine, m.Tame cx N k → (f m).Tame cx N k) :
    (modify f : Run Unit).Finishes cx N k :=
  fun m hm => .ok (h m hm)

/-! Scopes and the journal are outside of what makes a machine tame. -/

/-- Whatever is done to the scopes, it ends. -/
theorem onChain (f : Chain → Except Failure α × Chain) : (Run.onChain f).Finishes cx N k := by
  intro m hm
  unfold Run.onChain
  rcases f m.chain with ⟨e | a, c⟩
  · exact .error nofun (hm.withChain c)
  · exact .ok (hm.withChain c)

/-- Reading a variable ends. -/
theorem readVar (name : String) : (Run.readVar name).Finishes cx N k := by
  rw [Run.readVar_eq]
  exact onChain _

theorem modifyChain (f : Chain → Chain) : (Run.modifyChain f).Finishes cx N k := by
  rw [Run.modifyChain_eq]
  exact onChain _

/-- A write ends, whether it succeeds or not. -/
theorem writeChain (f : Chain → Except Failure Chain) : (Run.writeChain f).Finishes cx N k := by
  rw [Run.writeChain_eq]
  exact onChain _

theorem define (name : String) (v : Value) : (Run.define name v).Finishes cx N k := by
  rw [Run.define_eq]
  exact onChain _

/-- What is read off the scopes is there at once. -/
theorem withChain (f : Chain → α) : (Run.withChain f).Finishes cx N k :=
  look fun _ _ => pure _

theorem log (events : List Event) : (Run.log events).Finishes cx N k :=
  modify fun _ hm => ⟨⟨hm.loads.subs, hm.loads.functions, hm.loads.lambdas⟩, hm.depth⟩

/-- A note that is there in debug mode only, and what comes after it. -/
theorem noted {x : Run α} (debug : Bool) (text : String) (h : x.Finishes cx N k) :
    (if debug then do Run.note text; x else x).Finishes cx N k := by
  split
  · exact bind (log _) fun _ => h
  · exact h

theorem reply (r : Reply) : (Run.reply r).Finishes cx N k :=
  bind (log _) fun _ => lift _

/-- What a member stands for is there at once. -/
theorem member (object : Value) (name : String) : (Run.member cx object name).Finishes cx N k := by
  refine look fun m _ => ?_
  split
  · exact pure _
  · split
    · split
      · exact bind (log _) fun _ => pure _
      · exact pure _
    · exact pure _

/-- A statement that ends normally ends if what it does does. -/
theorem normally {x : Run Unit} (h : x.Finishes cx N k) : (Run.normally x).Finishes cx N k :=
  bind h fun _ => pure _

/-- A signal is taken as the way in which a statement ended. -/
theorem surface {x : Run Flow} (h : x.Finishes cx N k) : (Run.surface x).Finishes cx N k := by
  intro m hm
  rw [Lockstep.surface_apply]
  refine resume (h m hm) pure fun halted hhalted => ?_
  cases halted with
  | signal f => exact pure f
  | failed e => exact fail e
  | exhausted => exact (hhalted rfl).elim

/-- A SUB that has ended takes up its flow. -/
theorem endSub (f : Flow) : f.endSub.Finishes cx N k := by
  unfold Flow.endSub
  split
  · exact pure _
  · exact pure _
  · exact pure _
  · exact halt nofun

/-- A FUNCTION that has ended takes up its flow. -/
theorem result (f : Flow) : f.result.Finishes cx N k := by
  unfold Flow.result
  split
  · exact pure _
  · exact pure _
  · exact pure _
  · exact halt nofun

/-! ### Scopes -/

/-- A computation inside a scope, where fewer calls may be left. -/
theorem bracket {j : Nat} {x : Run α} {leave : Machine → Machine} {m : Machine}
    (hx : x.Finishes cx N j) (henter : m.Tame cx N j)
    (hleave : ∀ m₁ : Machine, m₁.Tame cx N j → (leave m₁).Tame cx N k) :
    Ended cx N k (x.andThen leave m) := by
  have ended := hx m henter
  unfold Run.andThen
  generalize x m = r at ended
  cases ended with
  | ok tame => exact .ok (hleave _ tame)
  | error halts tame => exact .error halts (hleave _ tame)

/-- What is done inside a scope ends, and the scope is closed. -/
theorem within {x : Run α} (scope : Chain → Scope) (hx : x.Finishes cx N k) :
    (Run.within scope x).Finishes cx N k :=
  fun _ hm => bracket hx (hm.withChain _) fun _ h => h.withChain _

/-- A call has one call less left, and it is not made if there is none. -/
theorem call {x : Run α} {m : Machine} (enter : Machine → Machine)
    (leave : Machine → Machine → Machine) (hx : ∀ j < k, x.Finishes cx N j) (hm : m.Tame cx N k)
    (henter : (enter m).Loads (Routine.Modest N) ∧ (enter m).depth = m.depth + 1)
    (hleave : ∀ m₁ : Machine, m₁.Loads (Routine.Modest N) →
      (leave m m₁).Loads (Routine.Modest N) ∧ (leave m m₁).depth = m₁.depth - 1) :
    Ended cx N k (if cx.config.maxDepth ≤ m.depth
      then .error (.failed (.stackOverflow cx.config.maxDepth)) m
      else x.andThen (leave m) (enter m)) := by
  have hdepth := hm.depth
  split
  · exact .error nofun hm
  · obtain ⟨j, rfl⟩ : ∃ j, k = j + 1 := ⟨k - 1, by omega⟩
    refine bracket (hx j (by omega)) ⟨henter.1, by omega⟩ fun m₁ h₁ => ?_
    have hleft := hleave m₁ h₁.loads
    have hdepth₁ := h₁.depth
    exact ⟨hleft.1, by omega⟩

/-- A call ends if what is done in its frame does with one call less to be made. -/
theorem inFrame {x : Run α} (hx : ∀ j < k, x.Finishes cx N j) :
    (Run.called cx.config.maxDepth (Run.within Chain.newFrame x)).Finishes cx N k := by
  intro m hm
  rw [Run.called_within]
  exact call Machine.enterFrame (fun _ => Machine.leaveFrame) hx hm
    ⟨⟨hm.loads.subs, hm.loads.functions, hm.loads.lambdas⟩, rfl⟩
    fun _ h => ⟨⟨h.subs, h.functions, h.lambdas⟩, rfl⟩

/-- The call of a lambda ends if what is done in its frame does with one call less to be made. -/
theorem inLambda {x : Run α} (bindings : Table Value) (hx : ∀ j < k, x.Finishes cx N j) :
    (Run.called cx.config.maxDepth (Run.fromRoot bindings x)).Finishes cx N k := by
  intro m hm
  rw [Run.called_fromRoot]
  exact call (Machine.enterLambda bindings) Machine.leaveLambda hx hm
    ⟨⟨hm.loads.subs, hm.loads.functions, hm.loads.lambdas⟩, rfl⟩
    fun _ h => ⟨⟨h.subs, h.functions, h.lambdas⟩, rfl⟩

end Run.Finishes

end BasicScript
