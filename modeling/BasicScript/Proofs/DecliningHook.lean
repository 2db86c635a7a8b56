import BasicScript.Host.Console
import BasicScript.Proofs.Beginning

/-!
# Hooks that decline

A host may have hooks that never answer a read and never take a write.  A program does not see them
when it reads members, for what the hooks leave alone goes on as if there were none.  It may see them
when it writes: where there are hooks, the object of an assignment to a member is evaluated in order
to ask them about it, and where there are none it is not.  That makes a difference if the evaluation
fails or does something.

* `Hooks.Decline`: hooks that never have an answer.
* `Harmless`: an assignment to a member whose object can be evaluated without any effect.
* `declining_hooks_invisible`: in a run where all assignments are harmless, nothing else tells whether
  there are such hooks.
* `declining_hook_seen`: what a program sees of them in an assignment that is not harmless.
-/

namespace BasicScript

/-! ## Hooks -/

/-- No hook ever answers a read, takes a write or does anything besides. -/
structure Hooks.Decline (hooks : Hooks) : Prop where
  read : ∀ hook ∈ hooks.read, ∀ object member, hook object member = none
  write : ∀ hook ∈ hooks.write, ∀ object member v, hook object member v = { claimed := false }

namespace Hooks.Decline

variable {hooks : Hooks} (h : hooks.Decline) (object : Value) (member : String)
include h

/-- Hooks that decline answer no read. -/
theorem resolve?_eq : hooks.resolve? object member = none := by
  refine List.findSome?_eq_none_iff.mpr fun hook hhook => ?_
  exact h.read hook (List.mem_reverse.mp hhook) object member

/-- Hooks that decline take no write and report nothing. -/
theorem assign_eq (v : Value) : hooks.assign object member v = { claimed := false } := by
  have hdecline : ∀ hook ∈ hooks.write.reverse, hook object member v = { claimed := false } :=
    fun hook hhook => h.write hook (List.mem_reverse.mp hhook) object member v
  unfold assign
  generalize hooks.write.reverse = asked at hdecline
  induction asked with
  | nil => rfl
  | cons hook rest ih =>
    obtain ⟨hhook, hrest⟩ := List.forall_mem_cons.mp hdecline
    unfold offer
    rw [hhook, ih hrest]
    rfl

end Hooks.Decline

/-- The same context with other hooks. -/
def Context.withHooks (cx : Context) (hooks : Hooks) : Context :=
  { cx with host := { cx.host with hooks := hooks } }

/-! ## Reads -/

section Reads

variable {cx : Context} {hooks : Hooks} (hcx : cx.host.hooks = {}) (hdecline : hooks.Decline)
include hcx hdecline

/-- A member stands for the same with the hooks. -/
theorem member?_withHooks (m : Machine) :
    m.member? (cx.withHooks hooks) = m.member? cx := by
  funext object member
  have hhooks : (cx.withHooks hooks).host.hooks.resolve? object member =
      cx.host.hooks.resolve? object member := by
    rw [hcx]
    exact hdecline.resolve?_eq object member
  unfold Machine.member?
  rw [hhooks]
  rfl

/-- Reading a member does the same with the hooks. -/
theorem runMember_withHooks : Run.member (cx.withHooks hooks) = Run.member cx := by
  funext object member
  unfold Run.member
  rw [funext (member?_withHooks hcx hdecline)]
  rfl

/-- Calling a member does the same with the hooks. -/
theorem callMember_withHooks (g : Engine) : g.callMember (cx.withHooks hooks) = g.callMember cx := by
  funext object method args
  unfold Engine.callMember Machine.memberOf
  rw [funext (member?_withHooks hcx hdecline)]
  rfl

/-- Expressions do not tell whether there are hooks that decline. -/
theorem evalStep_withHooks (g : Engine) : evalStep (cx.withHooks hooks) g = evalStep cx g := by
  funext e
  cases e with
  | member object name =>
    show (do let v ← g.receiver cx object; Run.member (cx.withHooks hooks) v name.name) = _
    rw [runMember_withHooks hcx hdecline]
    rfl
  | methodCall object method args =>
    show g.callMember (cx.withHooks hooks) object method args = _
    rw [callMember_withHooks hcx hdecline]
    rfl
  | safeMember object name =>
    show (do
      let v ← g.eval object
      if v.isNil then return .nil
      else return (← get).memberOf (cx.withHooks hooks) v name.name : Run Value) = _
    unfold Machine.memberOf
    rw [funext (member?_withHooks hcx hdecline)]
    rfl
  | _ => rfl

end Reads

/-! ## Writes -/

/-- What hooks are asked about in an assignment to a member: the variable that its place is below,
from where the path is only looked up, or else the object. -/
def askedAbout (object : Expr) : Option (Ident × List Value.Step) → Expr
  | some (root, _) => .var root
  | none => object

/-- No events are no change. -/
theorem Run.log_nil (m : Machine) : Run.log [] m = .ok () m := by
  have hjournal : m.journal ++ ([] : List Event) = m.journal := by simp
  show EStateM.Result.ok () { m with journal := m.journal ++ ([] : List Event) } = _
  rw [hjournal]

section Writes

variable {cx : Context} {hooks : Hooks} {g : Engine} {object : Expr} {member : Ident} {m : Machine}
  {what : Value × Option (Ident × List Value.Step)}

/-- Where there are no hooks nothing is evaluated. -/
theorem offer_of_empty (hempty : cx.host.hooks.isEmpty = true) :
    g.offer cx object what.2 member.name what.1 m = .ok false m := by
  unfold Engine.offer
  rw [if_pos hempty]
  rfl

/-- Hooks that decline are asked about an object that can be evaluated without any effect. -/
theorem offer_of_ok (hdecline : hooks.Decline) {u : Value}
    (hu : g.receiver (cx.withHooks hooks) (askedAbout object what.2) m = .ok u m) :
    g.offer (cx.withHooks hooks) object what.2 member.name what.1 m = .ok false m := by
  obtain ⟨v, place⟩ := what
  have hdeclined : ∀ target, (do
      let answer := (cx.withHooks hooks).host.hooks.assign target member.name v
      Run.log answer.events
      return answer.claimed : Run Bool) m = .ok false m := by
    intro target
    have hanswer : (cx.withHooks hooks).host.hooks.assign target member.name v =
        { claimed := false } := hdecline.assign_eq target member.name v
    rw [hanswer]
    exact Run.bind_of_ok (Run.log_nil m)
  unfold Engine.offer
  split
  · rfl
  · cases place with
    | none => exact (Run.bind_of_ok hu).trans (hdeclined u)
    | some target => exact (Run.bind_of_ok hu).trans (hdeclined _)

/-- Where both sides decline a write they write the same. -/
theorem write_of_declined (h : g.offer cx object what.2 member.name what.1 m = .ok false m)
    {cx' : Context} (h' : g.offer cx' object what.2 member.name what.1 m = .ok false m) :
    g.write cx' object member what m = g.write cx object member what m := by
  unfold Engine.write
  rw [Run.bind_of_ok h, Run.bind_of_ok h']

/-- **A write is the same with hooks and without them** if the object can be evaluated without any
effect. -/
theorem write_of_ok (hcx : cx.host.hooks = {}) (hdecline : hooks.Decline) {u : Value}
    (hu : g.receiver (cx.withHooks hooks) (askedAbout object what.2) m = .ok u m) :
    g.write (cx.withHooks hooks) object member what m = g.write cx object member what m := by
  have hnone : cx.host.hooks.isEmpty = true := congrArg Hooks.isEmpty hcx
  exact write_of_declined (offer_of_empty hnone) (offer_of_ok hdecline hu)

/-- The evaluation of the object may also stop. -/
theorem precedes_write (hcx : cx.host.hooks = {}) (hdecline : hooks.Decline) {u : Value}
    (hu : Precedes (g.receiver (cx.withHooks hooks) (askedAbout object what.2) m) (.ok u m)) :
    Precedes (g.write (cx.withHooks hooks) object member what m)
      (g.write cx object member what m) := by
  rcases hu with same | ⟨m₁, stopped⟩
  · exact .inl (write_of_ok hcx hdecline same.symm).symm
  · have hnone : cx.host.hooks.isEmpty = true := congrArg Hooks.isEmpty hcx
    by_cases hempty : (cx.withHooks hooks).host.hooks.isEmpty = true
    · exact .inl (write_of_declined (offer_of_empty hnone) (offer_of_empty hempty)).symm
    · refine .inr ⟨m₁, ?_⟩
      obtain ⟨v, place⟩ := what
      have hoffer : g.offer (cx.withHooks hooks) object place member.name v m =
          .error .exhausted m₁ := by
        unfold Engine.offer
        rw [if_neg hempty]
        cases place with
        | none => exact Run.bind_of_error stopped
        | some target => exact Run.bind_of_error stopped
      exact Run.bind_of_error hoffer

end Writes

/-! ## Statements -/

/-- An assignment to a member is harmless at a machine: whenever its value and its place have been
evaluated, what hooks are asked about can be evaluated too, with that much fuel, and this changes
nothing. -/
def Harmless (cx : Context) (fuel : Nat) (object value : Expr) (m : Machine) : Prop :=
  ∀ n v place m₁, (engine cx n).beforeWrite object value m = .ok (v, place) m₁ →
    ∃ u, (engine cx fuel).receiver cx (askedAbout object place) m₁ = .ok u m₁

/-- Watches for assignments to members that are not harmless. -/
def harmlessWatch (cx : Context) (fuel : Nat) : Watch where
  eval _ _ _ := True
  exec s m _ := ∀ object member value, s = .assignMember object member value →
    Harmless cx fuel object value m

/-- Statements other than assignments to members do not ask hooks themselves. -/
theorem execStep_withHooks (cx : Context) (hooks : Hooks) (g : Engine) {s : Stmt}
    (hs : ∀ object member value, s ≠ .assignMember object member value) :
    execStep (cx.withHooks hooks) g s = execStep cx g s := by
  cases s with
  | assignMember object member value => exact (hs object member value rfl).elim
  | _ => rfl

/-- Two assignments to a member differ as much as their writes do. -/
theorem precedes_assignMember {cx cx' : Context} {g : Engine} {object : Expr} {member : Ident}
    {value : Expr} {m : Machine}
    (h : ∀ what m₁, g.beforeWrite object value m = .ok what m₁ →
      Precedes (g.write cx object member what m₁) (g.write cx' object member what m₁)) :
    Precedes (execStep cx g (.assignMember object member value) m)
      (execStep cx' g (.assignMember object member value) m) := by
  show Precedes (Run.normally (g.assignMember cx object member value) m)
    (Run.normally (g.assignMember cx' object member value) m)
  refine Run.precedes_bind ?_ fun _ _ _ => .refl _
  exact Run.precedes_bind (.refl _) h

/-- What comes before a write goes on in the same way until it stops. -/
theorem Engine.Begins.beforeWrite {g g' : Engine} (h : g.Begins g') (object value : Expr) :
    (g.beforeWrite object value).Begins (g'.beforeWrite object value) := by
  intro m
  unfold Engine.beforeWrite
  refine Run.precedes_bind (h.eval value m) fun v m₁ _ => ?_
  cases assignTarget? object with
  | none => exact .refl _
  | some target =>
    refine Run.precedes_bind ?_ fun _ _ _ => .refl _
    exact Run.precedes_bind (h.steps target.2 m₁) fun _ _ _ => .refl _

/-! ## Runs -/

section Runs

variable {cx : Context} {hooks : Hooks} (hcx : cx.host.hooks = {}) (hdecline : hooks.Decline)
  (fuel : Nat)
include hcx hdecline

/-- A run without hooks, as far as it is harmless, is the beginning of the run with them. -/
theorem plain_begins_hooked (n : Nat) :
    ((harmlessWatch (cx.withHooks hooks) fuel).stopped cx n).Begins
      (engine (cx.withHooks hooks) (fuel + n)) := by
  refine Watch.begins (g := fun n => engine (cx.withHooks hooks) (fuel + n))
    (fun n => Nat.le_add_left n fuel) (fun n e h => ?_) (fun n s m r h harmless => ?_) n
  · show (evalStep cx _ e).Begins (evalStep (cx.withHooks hooks) _ e)
    rw [evalStep_withHooks hcx hdecline]
    exact h.evalStep cx e
  · refine Run.precedes_surface (Precedes.trans (h.execStep cx s m) ?_)
    by_cases hs : ∃ object member value, s = .assignMember object member value
    · obtain ⟨object, member, value, rfl⟩ := hs
      refine precedes_assignMember fun what m₁ hwhat => .inl ?_
      obtain ⟨u, hu⟩ := harmless object member value rfl _ _ _ _ hwhat
      -- There is enough fuel to ask the hooks.
      have hasked := (engine_begins (cx.withHooks hooks) (Nat.le_add_right fuel n)).receiver
        (cx.withHooks hooks) (askedAbout object what.2) m₁
      exact write_of_ok hcx hdecline (hasked.of_ok hu)
    · have hplain := execStep_withHooks cx hooks (engine (cx.withHooks hooks) (fuel + n))
        fun object member value heq => hs ⟨object, member, value, heq⟩
      exact .inl (congrFun hplain m)

/-- A run with hooks, as far as it is harmless, is the beginning of the run without them. -/
theorem hooked_begins_plain (n : Nat) :
    ((harmlessWatch (cx.withHooks hooks) fuel).stopped (cx.withHooks hooks) n).Begins
      (engine cx n) := by
  refine Watch.begins (fun _ => Nat.le_refl _) (fun n e h => ?_) (fun n s m r h harmless => ?_) n
  · rw [evalStep_withHooks hcx hdecline]
    exact h.evalStep cx e
  · refine Run.precedes_surface (Precedes.trans ?_ (h.execStep cx s m))
    by_cases hs : ∃ object member value, s = .assignMember object member value
    · obtain ⟨object, member, value, rfl⟩ := hs
      have hwhole := (harmlessWatch (cx.withHooks hooks) fuel).stopped_begins (cx.withHooks hooks) n
      refine precedes_assignMember fun what m₁ hwhat => ?_
      obtain ⟨u, hu⟩ := harmless object member value rfl n _ _ _
        ((hwhole.beforeWrite object value m).of_ok hwhat)
      -- The object is evaluated with less fuel here, so that this may stop.
      refine precedes_write hcx hdecline (u := u) ?_
      have hmore := (engine_begins (cx.withHooks hooks) (Nat.le_max_left n fuel)).receiver
        (cx.withHooks hooks) (askedAbout object what.2) m₁
      have hasked := (engine_begins (cx.withHooks hooks) (Nat.le_max_right n fuel)).receiver
        (cx.withHooks hooks) (askedAbout object what.2) m₁
      rw [← hasked.of_ok hu]
      exact (hwhole.receiver (cx.withHooks hooks) (askedAbout object what.2) m₁).trans hmore
    · have hplain := execStep_withHooks cx hooks
        ((harmlessWatch (cx.withHooks hooks) fuel).stopped (cx.withHooks hooks) n)
        fun object member value heq => hs ⟨object, member, value, heq⟩
      exact .inl (congrFun hplain.symm m)

end Runs

/-- All assignments to members are harmless in the run of a program in one context, as seen in
another one. -/
def Machine.RunsHarmlessly (m : Machine) (cx : Context) (fuel : Nat) (p : Program)
    (seen : Context) (enough : Nat) : Prop :=
  (harmlessWatch seen enough).Passes cx fuel (fun g => g.topLevel (m.adopt p).1.statements)
    ((m.adopt p).2.load (m.adopt p).1)

/-- A run that is harmless and does not stop is the same as what it begins. -/
theorem Machine.RunsHarmlessly.run_eq {m : Machine} {cx cx' seen : Context} {n n' enough : Nat}
    {p : Program} (h : m.RunsHarmlessly cx n p seen enough)
    (hbegins : ((harmlessWatch seen enough).stopped cx n).Begins (engine cx' n'))
    (hfinished : (m.run cx n p).1 ≠ .exhausted) : m.run cx' n' p = m.run cx n p := by
  refine Run.verdict_congr (Watch.Passes.eq_of_begins h (hbegins.topLevel _) ?_)
  intro ⟨m₁, stopped⟩
  exact hfinished (Run.verdict_of_exhausted stopped)

/-- **Hooks that decline are invisible** as long as all assignments to members are harmless.  A
machine runs a program on a host that has no hooks, and on the same host with hooks that decline.  If
the run without hooks is harmless and comes to an end, then the run with hooks has the same verdict
and leaves the same machine, given as much fuel more as it takes to ask the hooks; and if the run
with hooks is harmless and comes to an end, then so does the run without them, in the same way. -/
theorem declining_hooks_invisible (cx : Context) (hcx : cx.host.hooks = {}) (hooks : Hooks)
    (hdecline : hooks.Decline) (m : Machine) (p : Program) (fuel enough : Nat) :
    let hooked := cx.withHooks hooks
    (m.RunsHarmlessly cx fuel p hooked enough → (m.run cx fuel p).1 ≠ .exhausted →
      m.run hooked (enough + fuel) p = m.run cx fuel p) ∧
    (m.RunsHarmlessly hooked fuel p hooked enough → (m.run hooked fuel p).1 ≠ .exhausted →
      m.run cx fuel p = m.run hooked fuel p) := by
  intro hooked
  refine ⟨fun harmless hfinished => ?_, fun harmless hfinished => ?_⟩
  · exact harmless.run_eq (plain_begins_hooked hcx hdecline enough fuel) hfinished
  · exact harmless.run_eq (hooked_begins_plain hcx hdecline enough fuel) hfinished

/-- Hooks can be asked about a variable, unless it is undeclared under OPTION EXPLICIT and there is no
namespace of its name. -/
theorem receiver_var_iff (cx : Context) (n : Nat) (x : Ident) (m : Machine) :
    (∃ u, (engine cx (n + 1)).receiver cx (.var x) m = .ok u m) ↔
      (∃ v, m.chain.get x.name = .ok v) ∨ (cx.host.namespaces.object? x.name).isSome := by
  have hread : (engine cx (n + 1)).eval (.var x) m = Run.lift (m.chain.get x.name) m := rfl
  unfold Engine.receiver
  dsimp only
  rw [Run.get_bind]
  cases hlookup : m.chain.lookup? x.name with
  | some v =>
    have hget : m.chain.get x.name = .ok v := by
      unfold Chain.get
      rw [hlookup]
    rw [if_neg nofun, hread, hget]
    exact iff_of_true ⟨v, rfl⟩ (.inl ⟨v, rfl⟩)
  | none =>
    rw [if_pos Option.isNone_none]
    cases cx.host.namespaces.object? x.name with
    | some ns => exact iff_of_true ⟨ns, rfl⟩ (.inr rfl)
    | none =>
      dsimp only
      rw [hread]
      cases m.chain.get x.name with
      | ok v => exact iff_of_true ⟨v, rfl⟩ (.inl ⟨v, rfl⟩)
      | error e => exact iff_of_false nofun nofun

/-- An assignment of a number is harmless if hooks can be asked about its object at once. -/
theorem harmless_of_number {cx : Context} {enough : Nat} {object : Expr} {k : Int64} {m : Machine}
    {place : Option (Ident × List Value.Step)}
    (hplace : ∀ n, (engine cx (n + 1)).beforeWrite object (.int k) m = .ok (.int k, place) m)
    (hasked : ∃ u, (engine cx enough).receiver cx (askedAbout object place) m = .ok u m) :
    Harmless cx enough object (.int k) m := by
  intro n v place' m₁ hbefore
  cases n with
  | zero => cases hbefore
  | succ n =>
    rw [hplace] at hbefore
    cases hbefore
    exact hasked

/-- Two hooks that decline, one for reads and one for writes. -/
def idleHooks : Hooks where
  read := [fun _ _ => none]
  write := [fun _ _ _ => { claimed := false }]

/-- The hooks of the example decline everything. -/
theorem idleHooks_decline : idleHooks.Decline where
  read _ hhook _ _ := by cases List.mem_singleton.mp hhook; rfl
  write _ hhook _ _ _ := by cases List.mem_singleton.mp hhook; rfl

/-- A map gets a field, and a text does not. -/
def fieldProgram : Program :=
  ⟨[.assign (.ofString "p") (.map []),
    .assignMember (.var (.ofString "p")) (.ofString "x") (.int 1),
    .assignMember (.str "t") (.ofString "x") (.int 2)]⟩

/-- Expressions are not watched. -/
theorem harmlessWatch_engine (seen cx : Context) (enough n : Nat)
    (alarm : Machine → Halt × Machine) :
    ((harmlessWatch seen enough).probe alarm).engine cx (n + 1) =
      ⟨n + 1, evalStep cx (((harmlessWatch seen enough).probe alarm).engine cx n),
        ((harmlessWatch seen enough).probe alarm).execProbed cx (n + 1)⟩ := by
  have heval : ((harmlessWatch seen enough).probe alarm).evalProbed cx (n + 1) =
      evalStep cx (((harmlessWatch seen enough).probe alarm).engine cx n) := by
    funext e m
    exact if_pos trivial
  unfold Probe.engine
  rw [heval]
  rfl

/-- In the example the target of the write is harmless to evaluate, whether there are hooks or
not. -/
theorem fieldProgram_harmless {cx : Context}
    (hcx : cx = {} ∨ cx = Context.withHooks {} idleHooks) :
    (Machine.start {}).RunsHarmlessly cx 9 fieldProgram (Context.withHooks {} idleHooks) 1 := by
  rcases hcx with rfl | rfl
  all_goals
    refine Watch.passes_cons (Watch.passes_exec nofun fun alarm => ?_) rfl
      (Watch.passes_cons (Watch.passes_exec ?_ fun alarm => ?_) rfl
        (Watch.passes_cons (Watch.passes_exec ?_ fun alarm => ?_) rfl Watch.passes_nil))
    · rw [harmlessWatch_engine]
      rfl
    · rintro _ _ _ ⟨⟩
      exact harmless_of_number (fun _ => rfl) ((receiver_var_iff _ _ _ _).mpr (.inl ⟨_, rfl⟩))
    · rw [harmlessWatch_engine]
      rfl
    · rintro _ _ _ ⟨⟩
      exact harmless_of_number (fun _ => rfl) ⟨_, rfl⟩
    · rw [harmlessWatch_engine]
      rfl

/-- The two runs of a program with a harmless assignment to a field and one to a text. -/
theorem declining_hooks_invisible_fieldProgram :
    let hooked := Context.withHooks {} idleHooks
    let m := Machine.start {}
    idleHooks.Decline ∧ m.RunsHarmlessly {} 9 fieldProgram hooked 1 ∧
      m.RunsHarmlessly hooked 9 fieldProgram hooked 1 ∧
      m.run hooked 10 fieldProgram = m.run {} 9 fieldProgram ∧
      m.run {} 9 fieldProgram = m.run hooked 9 fieldProgram ∧
      (m.run hooked 9 fieldProgram).2.global? "p" = some (.map [("X", .int 1)]) := by
  intro hooked m
  have hplain : m.RunsHarmlessly {} 9 fieldProgram hooked 1 := fieldProgram_harmless (.inl rfl)
  have hhooked : m.RunsHarmlessly hooked 9 fieldProgram hooked 1 := fieldProgram_harmless (.inr rfl)
  have invisible := declining_hooks_invisible {} rfl idleHooks idleHooks_decline m fieldProgram 9 1
  exact ⟨idleHooks_decline, hplain, hhooked, invisible.1 hplain nofun, invisible.2 hhooked nofun, rfl⟩

/-- A host that can print. -/
def printingHost : Host where
  natives := Natives.replace [] "Print" (.exact 1) fun args => Console.print (args.headD .nil)

/-- A FUNCTION that prints a line, and an assignment to a member of what it returns. -/
def printingTarget : Program :=
  ⟨[.procedure (.function (.ofString "f") none ⟨[], [.print (.str "called")]⟩),
    .assignMember (.call (.ofString "f") [] []) (.ofString "x") (.int 1)]⟩

/-- An assignment to a member of a variable. -/
def undeclaredTarget : Program :=
  ⟨[.assignMember (.var (.ofString "p")) (.ofString "x") (.int 1)]⟩

/-- Hooks that decline are seen where the object of an assignment is the result of a call, which is
executed only to ask them, and where it is an undeclared variable under OPTION EXPLICIT, which is
read before it is written. -/
theorem declining_hook_seen :
    let cx : Context := { host := printingHost }
    let strict : Context := { config := { strict := true } }
    idleHooks.Decline ∧
    (((Machine.start cx.config).run cx 9 printingTarget).2.journal.printed = [] ∧
      ((Machine.start cx.config).run (cx.withHooks idleHooks) 9 printingTarget).2.journal.printed =
        ["called"]) ∧
    (((Machine.start strict.config).run strict 9 undeclaredTarget).1 =
        .failed (.undeclaredAssignment "P") ∧
      ((Machine.start strict.config).run (strict.withHooks idleHooks) 9 undeclaredTarget).1 =
        .failed (.undeclaredVariable "P")) :=
  ⟨idleHooks_decline, ⟨rfl, rfl⟩, rfl, rfl⟩

end BasicScript
