import BasicScript.Proofs.Beginning
import Mathlib.Data.List.Chain

/-!
# Unwinding nested TRYs

A block may end in two ways that its statements go out of turn: with a flow that is not normal, and
with a failure.  Inside a TRY the block is followed by the handler, if there is one and the block has
failed, and then by the FINALLY in any case; and each of these may again end in any way.  This file
follows such outcomes through any number of TRYs around each other.

* `Outcome` and `Finishes`: how a block ends, given enough fuel.
* `nest`: TRYs around each other, each with a FINALLY.
* `Unwinds`: which blocks run when a nest is executed, one after the other, and what is pending.
* `finishes_nest_iff`: a nest ends just as it unwinds.
* `Unwound`: what is true of the blocks that have run.
* `finally_runs_once` puts these together.
-/

namespace BasicScript

/-! ## Outcomes -/

/-- How a block of statements ends. -/
inductive Outcome where
  | ended (flow : Flow)
  | failed (e : Failure)

namespace Outcome

/-- The outcome as the result of a computation that leaves some machine. -/
def leaving : Outcome → Machine → EStateM.Result Halt Machine Flow
  | .ended flow, m => .ok flow m
  | .failed e, m => .error (.failed e) m

/-- The outcome that a TRY has before its FINALLY. -/
def toExcept : Outcome → Except Halt Flow
  | .ended flow => .ok flow
  | .failed e => .error (.failed e)

/-- What is pending after a FINALLY: what was pending before if the FINALLY has ended normally, and
else the outcome of the FINALLY. -/
def replacedBy (pending : Outcome) : Outcome → Outcome
  | .ended .normal => pending
  | out => out

/-- The outcome and the machine can be told from the result. -/
theorem leaving_inj {out out' : Outcome} {m m' : Machine} (h : out.leaving m = out'.leaving m') :
    out = out' ∧ m = m' := by
  cases out <;> cases out' <;> cases h <;> exact ⟨rfl, rfl⟩

/-- A block that ends with an outcome has not run out of fuel. -/
theorem not_stops {out : Outcome} {m : Machine} : ¬ Stops (out.leaving m) := by
  rintro ⟨m', h⟩
  cases out <;> cases h

/-- An outcome is no signal, so nothing is taken up. -/
theorem surface_leaving {x : Run Flow} {out : Outcome} {m m₁ : Machine}
    (h : x m = out.leaving m₁) : Run.surface x m = out.leaving m₁ := by
  unfold Run.surface
  rw [h]
  cases out <;> rfl

end Outcome

/-- A statement does not end with a signal. -/
theorem exec_ne_signal {cx : Context} {n : Nat} {s : Stmt} {m m₁ : Machine} {flow : Flow} :
    exec cx n s m ≠ .error (.signal flow) m₁ := by
  intro h
  cases n with
  | zero => cases h
  | succ n =>
    change Run.surface _ m = _ at h
    unfold Run.surface at h
    split at h
    · cases h
    · next hsignal => exact hsignal _ _ h

/-- A block ends with an outcome or its fuel is used up. -/
theorem block_cases (cx : Context) (n : Nat) (body : List Stmt) (m : Machine) :
    (∃ out m₁, (engine cx n).block body m = Outcome.leaving out m₁) ∨
      Stops ((engine cx n).block body m) := by
  induction body generalizing m with
  | nil => exact .inl ⟨.ended .normal, m, rfl⟩
  | cons s rest ih =>
    show (∃ out m₁, (exec cx n s >>= _) m = Outcome.leaving out m₁) ∨ Stops ((exec cx n s >>= _) m)
    cases hs : exec cx n s m with
    | ok flow m₁ =>
      rw [Run.bind_of_ok hs]
      cases flow with
      | normal => exact ih m₁
      | _ => exact .inl ⟨.ended _, m₁, rfl⟩
    | error halt m₁ =>
      rw [Run.bind_of_error hs]
      cases halt with
      | failed e => exact .inl ⟨.failed e, m₁, rfl⟩
      | signal flow => exact (exec_ne_signal hs).elim
      | exhausted => exact .inr ⟨m₁, rfl⟩

/-- With enough fuel a block ends with an outcome and leaves a machine. -/
def Finishes (cx : Context) (body : List Stmt) (m : Machine) (out : Outcome) (m₁ : Machine) :
    Prop :=
  Eventually cx (·.block body) m (out.leaving m₁)

/-- A block that has ended once ends so with more fuel too. -/
theorem Finishes.of_eq {cx : Context} {n : Nat} {body : List Stmt} {m m₁ : Machine} {out : Outcome}
    (h : (engine cx n).block body m = out.leaving m₁) : Finishes cx body m out m₁ := by
  refine ⟨n, fun n' hle => ?_⟩
  rcases (engine_begins cx hle).block body m with same | stops
  · exact same.trans h
  · rw [h] at stops
    exact (Outcome.not_stops stops).elim

/-- A block ends in one way only. -/
theorem Finishes.unique {cx : Context} {body : List Stmt} {m m₁ m₂ : Machine} {out out' : Outcome}
    (h : Finishes cx body m out m₁) (h' : Finishes cx body m out' m₂) : out = out' ∧ m₁ = m₂ := by
  obtain ⟨n₁, hn₁⟩ := h
  obtain ⟨n₂, hn₂⟩ := h'
  have heq := (hn₁ _ (Nat.le_max_left n₁ n₂)).symm.trans (hn₂ _ (Nat.le_max_right n₁ n₂))
  exact Outcome.leaving_inj heq

/-- A block of one statement. -/
theorem block_singleton (g : Engine) (s : Stmt) (m : Machine) : g.block [s] m = g.exec s m := by
  show (g.exec s >>= _) m = _
  cases hs : g.exec s m with
  | ok flow m₁ =>
    rw [Run.bind_of_ok hs]
    cases flow <;> rfl
  | error halt m₁ => exact Run.bind_of_error hs

/-! ## Nests -/

/-- A TRY without its body. -/
structure Layer where
  handler : Option Handler := none
  cleanup : List Stmt

/-- TRYs around each other, the outermost one first, and a body inside all of them. -/
def nest (body : List Stmt) : List Layer → List Stmt
  | [] => body
  | l :: inner => [.attempt (nest body inner) l.handler (some l.cleanup)]

/-- The blocks of a nest.  Its layers are numbered from the innermost one outward. -/
inductive Segment where
  | body
  | handler (layer : Nat)
  | cleanup (layer : Nat)

/-- The machine with which a handler begins. -/
def Handler.entry (h : Handler) (e : Failure) (m : Machine) : Machine :=
  { m with chain := match h.var with
      | some x => m.chain.bind x.name e.toValue
      | none => m.chain }

/-- A block of a nest has been run. -/
structure Visit where
  segment : Segment
  code : List Stmt
  start : Machine
  outcome : Outcome
  finish : Machine

/-- What a handler makes of an outcome.  It is entered after a failure, and only then. -/
inductive Recovers (cx : Context) (layer : Nat) :
    Option Handler → Outcome → Machine → List Visit → Outcome → Machine → Prop where
  | skipped {h : Option Handler} {out : Outcome} {m : Machine}
    (skip : h = none ∨ ∃ flow, out = .ended flow) : Recovers cx layer h out m [] out m
  | entered {h : Handler} {e : Failure} {m m₁ : Machine} {out : Outcome}
    (ran : Finishes cx h.body (h.entry e m) out m₁) :
    Recovers cx layer (some h) (.failed e) m
      [⟨.handler layer, h.body, h.entry e m, out, m₁⟩] out m₁

/-- What runs when a nest is executed, and the outcome that is pending at the end. -/
inductive Unwinds (cx : Context) (body : List Stmt) (m : Machine) :
    List Layer → List Visit → Outcome → Machine → Prop where
  | body {out : Outcome} {m₁ : Machine} (ran : Finishes cx body m out m₁) :
    Unwinds cx body m [] [⟨.body, body, m, out, m₁⟩] out m₁
  | layer {l : Layer} {inner : List Layer} {visits handled : List Visit}
    {out out' last : Outcome} {m₁ m₂ m₃ : Machine}
    (inside : Unwinds cx body m inner visits out m₁)
    (recovers : Recovers cx inner.length l.handler out m₁ handled out' m₂)
    (ran : Finishes cx l.cleanup m₂ last m₃) :
    Unwinds cx body m (l :: inner)
      (visits ++ (handled ++ [⟨.cleanup inner.length, l.cleanup, m₂, last, m₃⟩]))
      (out'.replacedBy last) m₃

/-! ## A nest ends just as it unwinds -/

section Layer

variable {cx : Context} {n : Nat} {inside cleanup : List Stmt} {h : Option Handler}
  {m m₁ m₂ m₃ : Machine} {out out' last : Outcome} {visits : List Visit} {layer : Nat}

/-- The handler is passed over. -/
theorem Engine.guarded_of_skip {g : Engine} (hinside : g.block inside m = out.leaving m₁)
    (hskip : h = none ∨ ∃ flow, out = .ended flow) : g.guarded inside h m = out.leaving m₁ := by
  unfold guarded
  rw [hinside]
  rcases hskip with rfl | ⟨flow, rfl⟩
  · cases out <;> rfl
  · rfl

/-- The handler is entered. -/
theorem Engine.guarded_of_failed {g : Engine} {q : Handler} {e : Failure}
    (hinside : g.block inside m = .error (.failed e) m₁) :
    g.guarded inside (some q) m = g.block q.body (q.entry e m₁) := by
  obtain ⟨x, body⟩ := q
  unfold guarded
  rw [hinside]
  rfl

/-- What is guarded ends as its handler leaves it. -/
theorem Recovers.guarded (hinside : Finishes cx inside m out m₁)
    (recovers : Recovers cx layer h out m₁ visits out' m₂) :
    Eventually cx (·.guarded inside h) m (out'.leaving m₂) := by
  obtain ⟨n₁, hn₁⟩ := hinside
  cases recovers with
  | skipped skip => exact ⟨n₁, fun n hle => Engine.guarded_of_skip (hn₁ n hle) skip⟩
  | @entered q e _ _ _ ran =>
    obtain ⟨n₂, hn₂⟩ := ran
    refine ⟨max n₁ n₂, fun n hle => ?_⟩
    exact (Engine.guarded_of_failed (hn₁ n (by omega))).trans (hn₂ n (by omega))

/-- If what is guarded has ended, then its block has, and the handler has been entered or passed
over. -/
theorem recovers_of_guarded (layer : Nat) (hguarded : (engine cx n).guarded inside h m =
      out'.leaving m₂) :
    ∃ out m₁ visits, Finishes cx inside m out m₁ ∧ Recovers cx layer h out m₁ visits out' m₂ := by
  rcases block_cases cx n inside m with ⟨out, m₁, hinside⟩ | ⟨m₁, hstopped⟩
  · have hfinishes := Finishes.of_eq hinside
    by_cases hskip : h = none ∨ ∃ flow, out = .ended flow
    · rw [Engine.guarded_of_skip hinside hskip] at hguarded
      obtain ⟨rfl, rfl⟩ := Outcome.leaving_inj hguarded
      exact ⟨out, m₁, [], hfinishes, .skipped hskip⟩
    · obtain ⟨hsome, hfailed⟩ := not_or.mp hskip
      obtain ⟨q, rfl⟩ := Option.ne_none_iff_exists'.mp hsome
      cases out with
      | ended flow => exact (hfailed ⟨flow, rfl⟩).elim
      | failed e =>
        rw [Engine.guarded_of_failed hinside] at hguarded
        exact ⟨_, m₁, _, hfinishes, .entered (.of_eq hguarded)⟩
  · unfold Engine.guarded at hguarded
    rw [hstopped] at hguarded
    cases out' <;> cases hguarded

/-- After what is guarded has ended, the FINALLY runs. -/
theorem Engine.attempt_of_guarded {g : Engine} (hguarded : g.guarded inside h m = out.leaving m₁) :
    g.attempt inside h (some cleanup) m = g.finish cleanup out.toExcept m₁ := by
  unfold attempt
  dsimp only
  rw [hguarded]
  cases out <;> rfl

/-- After a FINALLY that has ended the outcome is the pending one, or that of the FINALLY in its
place. -/
theorem Engine.finish_of_block {g : Engine} (hcleanup : g.block cleanup m = last.leaving m₁) :
    g.finish cleanup out.toExcept m = (out.replacedBy last).leaving m₁ := by
  show (g.block cleanup >>= _) m = _
  cases last with
  | ended flow =>
    rw [Run.bind_of_ok hcleanup]
    cases flow with
    | normal => cases out <;> rfl
    | _ => rfl
  | failed e => exact Run.bind_of_error hcleanup

/-- A TRY ends if what it guards and then its FINALLY do. -/
theorem finishes_attempt (hguarded : Eventually cx (·.guarded inside h) m (out.leaving m₁))
    (hcleanup : Finishes cx cleanup m₁ last m₂) :
    Finishes cx [.attempt inside h (some cleanup)] m (out.replacedBy last) m₂ := by
  obtain ⟨n₁, hn₁⟩ := hguarded
  obtain ⟨n₂, hn₂⟩ := hcleanup
  let n := max n₁ n₂
  refine .of_eq (n := n + 1) ?_
  rw [block_singleton]
  refine Outcome.surface_leaving (x := (engine cx n).attempt inside h (some cleanup)) ?_
  rw [Engine.attempt_of_guarded (hn₁ n (Nat.le_max_left n₁ n₂))]
  exact Engine.finish_of_block (hn₂ n (Nat.le_max_right n₁ n₂))

/-- What is guarded ends with an outcome or its fuel is used up. -/
theorem guarded_cases (cx : Context) (n : Nat) (inside : List Stmt) (h : Option Handler)
    (m : Machine) :
    (∃ out m₁, (engine cx n).guarded inside h m = Outcome.leaving out m₁) ∨
      Stops ((engine cx n).guarded inside h m) := by
  rcases block_cases cx n inside m with ⟨out, m₁, hinside⟩ | ⟨m₁, hstopped⟩
  · cases h with
    | none => exact .inl ⟨out, m₁, Engine.guarded_of_skip hinside (.inl rfl)⟩
    | some q =>
      cases out with
      | ended flow => exact .inl ⟨_, m₁, Engine.guarded_of_skip hinside (.inr ⟨flow, rfl⟩)⟩
      | failed e =>
        rw [Engine.guarded_of_failed hinside]
        exact block_cases cx n q.body (q.entry e m₁)
  · refine .inr ⟨m₁, ?_⟩
    unfold Engine.guarded
    rw [hstopped]

/-- If a TRY has ended, then what it guards and then its FINALLY have. -/
theorem guarded_of_finishes (hfinishes : Finishes cx [.attempt inside h (some cleanup)] m out m₂) :
    ∃ n out' m₁ last, (engine cx n).guarded inside h m = Outcome.leaving out' m₁ ∧
      Finishes cx cleanup m₁ last m₂ ∧ out = out'.replacedBy last := by
  obtain ⟨n, hn⟩ := hfinishes
  have hexec : Run.surface ((engine cx n).attempt inside h (some cleanup)) m = out.leaving m₂ :=
    (block_singleton _ _ m).symm.trans (hn (n + 1) (Nat.le_succ n))
  rcases guarded_cases cx n inside h m with ⟨out', m₁, hguarded⟩ | ⟨m₁, hstopped⟩
  · have hattempt : (engine cx n).attempt inside h (some cleanup) m =
      (engine cx n).finish cleanup out'.toExcept m₁ := Engine.attempt_of_guarded hguarded
    rcases block_cases cx n cleanup m₁ with ⟨last, m₃, hcleanup⟩ | ⟨m₃, hstopped⟩
    · rw [Engine.finish_of_block hcleanup] at hattempt
      rw [Outcome.surface_leaving hattempt] at hexec
      obtain ⟨rfl, rfl⟩ := Outcome.leaving_inj hexec
      exact ⟨n, out', m₁, last, hguarded, .of_eq hcleanup, rfl⟩
    · have hfinish : (engine cx n).finish cleanup out'.toExcept m₁ = .error .exhausted m₃ :=
        Run.bind_of_error hstopped
      unfold Run.surface at hexec
      rw [hattempt, hfinish] at hexec
      cases out <;> cases hexec
  · unfold Run.surface Engine.attempt at hexec
    dsimp only at hexec
    rw [hstopped] at hexec
    cases out <;> cases hexec

end Layer

/-- **A nest ends just as it unwinds.** -/
theorem finishes_nest_iff (cx : Context) (body : List Stmt) (layers : List Layer) (m : Machine)
    (out : Outcome) (m₁ : Machine) :
    Finishes cx (nest body layers) m out m₁ ↔
      ∃ visits, Unwinds cx body m layers visits out m₁ := by
  induction layers generalizing out m₁ with
  | nil =>
    constructor
    · exact fun ran => ⟨_, .body ran⟩
    · rintro ⟨visits, ⟨ran⟩⟩
      exact ran
  | cons l inner ih =>
    constructor
    · intro hfinishes
      obtain ⟨n, out', m₂, last, hguarded, ran, rfl⟩ := guarded_of_finishes hfinishes
      obtain ⟨out₁, m₃, handled, hinside, recovers⟩ := recovers_of_guarded inner.length hguarded
      obtain ⟨visits, inside⟩ := (ih out₁ m₃).mp hinside
      exact ⟨_, .layer inside recovers ran⟩
    · rintro ⟨_, unwinds⟩
      cases unwinds with
      | layer inside recovers ran =>
        exact finishes_attempt (recovers.guarded ((ih _ _).mpr ⟨_, inside⟩)) ran

/-! ## The blocks that have run -/

namespace Segment

/-- The place of a block in the order in which the blocks of a nest run. -/
def rank : Segment → Nat
  | .body => 0
  | .handler layer => 2 * layer + 1
  | .cleanup layer => 2 * layer + 2

/-- The block is a FINALLY. -/
def isCleanup : Segment → Bool
  | .cleanup _ => true
  | _ => false

end Segment

/-- What is pending after one more block has run. -/
def Visit.settles (pending : Outcome) (v : Visit) : Outcome :=
  if v.segment.isCleanup then pending.replacedBy v.outcome else v.outcome

/-- What is pending after some blocks have run: the outcome of the last one that is not a FINALLY, or
of a later FINALLY that has not ended normally. -/
def pendingAfter (visits : List Visit) : Outcome :=
  visits.foldl Visit.settles (.ended .normal)

/-- One block has run right after another: it began with the machine that the other one has left, but
for the variable of a CATCH if it is a handler. -/
def Visit.Follows (after before : Visit) : Prop :=
  after.start = before.finish ∨ ∃ (layer : Nat) (h : Handler) (e : Failure),
    after.segment = .handler layer ∧ after.code = h.body ∧ after.start = h.entry e before.finish

/-- The last one of some blocks has ended with an outcome, and all before it have failed. -/
def Outcome.DecidedBy (out : Outcome) (visits : List Visit) : Prop :=
  ∃ earlier last, visits = earlier ++ [last] ∧ last.outcome = out ∧
    ∀ v ∈ earlier, ∃ e, v.outcome = .failed e

/-- What is true of the blocks that have run when a nest has ended. -/
structure Unwound (cx : Context) (body : List Stmt) (layers : List Layer) (m : Machine)
    (visits : List Visit) (out : Outcome) (m₁ : Machine) : Prop where
  /-- They have run to their ends, one after the other. -/
  ran : ∀ v ∈ visits, Finishes cx v.code v.start v.outcome v.finish
  linked : visits.IsChain fun before after => after.Follows before
  first : visits.head?.map (·.start) = some m
  final : visits.getLast?.map (·.finish) = some m₁
  /-- The body came first, then the layers from the innermost one outward, in each of them the
  handler before the FINALLY, and none of them came twice. -/
  order : visits.Pairwise fun before after => before.segment.rank < after.segment.rank
  /-- Each FINALLY has run once. -/
  once : (visits.filter (·.segment.isCleanup)).map (·.code) = (layers.map (·.cleanup)).reverse
  /-- The handler of a layer has run if the layer has one and what it guards has failed, and only
  then. -/
  handler_iff : ∀ (outer : List Layer) (l : Layer) (inner : List Layer) (code : List Stmt)
    (start : Machine), layers = outer ++ l :: inner →
      ((∃ v ∈ visits, v.segment = .handler inner.length ∧ v.code = code ∧ v.start = start) ↔
        ∃ (h : Handler) (e : Failure) (m' : Machine), l.handler = some h ∧
          Finishes cx (nest body inner) m (.failed e) m' ∧ h.body = code ∧ h.entry e m' = start)
  /-- An outcome is pending until another one takes its place. -/
  outcome : out = pendingAfter visits
  /-- If each FINALLY has ended normally, then the outcome is decided by the body and the handlers
  alone. -/
  decided : (∀ v ∈ visits, v.segment.isCleanup → v.outcome = .ended .normal) →
    out.DecidedBy (visits.filter (!·.segment.isCleanup))

section Unwinds

variable {cx : Context} {body : List Stmt} {layers : List Layer} {m m₁ m₂ : Machine}
  {visits handled : List Visit} {out out' : Outcome} {layer : Nat} {h : Option Handler}
  {before last : Visit}

/-! ### One layer -/

namespace Recovers

/-- A handler that has been entered has run to its end. -/
theorem ran (recovers : Recovers cx layer h out m₁ handled out' m₂) :
    ∀ v ∈ handled, Finishes cx v.code v.start v.outcome v.finish := by
  cases recovers with
  | skipped skip => exact fun _ hv => absurd hv List.not_mem_nil
  | entered ran => exact List.forall_mem_singleton.mpr ran

/-- Nothing but the handler of the layer runs before its FINALLY. -/
theorem segment_eq (recovers : Recovers cx layer h out m₁ handled out' m₂) :
    ∀ v ∈ handled, v.segment = .handler layer := by
  cases recovers with
  | skipped skip => exact fun _ hv => absurd hv List.not_mem_nil
  | entered ran => exact List.forall_mem_singleton.mpr rfl

/-- The blocks of a layer rank after all blocks inside of it. -/
theorem rank_lt (recovers : Recovers cx layer h out m₁ handled out' m₂)
    (hlast : last.segment = .cleanup layer) :
    ∀ v ∈ handled ++ [last], 2 * layer < v.segment.rank ∧ v.segment.rank ≤ 2 * (layer + 1) := by
  intro v hv
  rcases List.mem_append.mp hv with hv | hv
  · rw [recovers.segment_eq v hv]
    dsimp only [Segment.rank]
    omega
  · rw [List.mem_singleton.mp hv, hlast]
    dsimp only [Segment.rank]
    omega

/-- The handler of a layer runs before its FINALLY. -/
theorem order (recovers : Recovers cx layer h out m₁ handled out' m₂)
    (hlast : last.segment = .cleanup layer) :
    (handled ++ [last]).Pairwise fun before after => before.segment.rank < after.segment.rank := by
  cases recovers with
  | skipped skip => exact List.pairwise_singleton _ _
  | entered ran =>
    refine List.pairwise_pair.mpr ?_
    rw [hlast]
    exact Nat.lt_succ_self _

theorem linked (recovers : Recovers cx layer h out m₁ handled out' m₂) (hlast : last.start = m₂) :
    (handled ++ [last]).IsChain fun before after => after.Follows before := by
  cases recovers with
  | skipped skip => exact List.isChain_singleton _
  | entered ran => exact List.isChain_pair.mpr (.inl hlast)

/-- The first block of a layer follows the block that has run last inside of it. -/
theorem follows (recovers : Recovers cx layer h out m₁ handled out' m₂) (hlast : last.start = m₂)
    (hbefore : before.finish = m₁) :
    ∀ after ∈ (handled ++ [last]).head?, after.Follows before := by
  intro after hafter
  subst hbefore
  cases recovers with
  | skipped skip =>
    cases hafter
    exact .inl hlast
  | entered ran =>
    cases hafter
    exact .inr ⟨_, _, _, rfl, rfl, rfl⟩

/-- What is pending after the handler is what the layer makes of the outcome. -/
theorem pending (recovers : Recovers cx layer h out m₁ handled out' m₂) :
    handled.foldl Visit.settles out = out' := by
  cases recovers with
  | skipped skip => rfl
  | entered ran => rfl

/-- If an outcome was decided by some blocks, it is decided by them and the handler. -/
theorem decided (recovers : Recovers cx layer h out m₁ handled out' m₂)
    (hdecided : out.DecidedBy visits) : out'.DecidedBy (visits ++ handled) := by
  obtain ⟨earlier, last, rfl, rfl, hearlier⟩ := hdecided
  generalize hout : last.outcome = out at recovers
  cases recovers with
  | skipped skip => exact ⟨earlier, last, List.append_nil _, hout, hearlier⟩
  | entered ran =>
    refine ⟨earlier ++ [last], _, rfl, rfl, List.forall_mem_append.mpr ⟨hearlier, ?_⟩⟩
    exact List.forall_mem_singleton.mpr ⟨_, hout⟩

/-- The handler of a layer runs if there is one and the outcome so far is a failure. -/
theorem entered_iff (recovers : Recovers cx layer h out m₁ handled out' m₂) (code : List Stmt)
    (start : Machine) :
    (∃ v ∈ handled, v.code = code ∧ v.start = start) ↔
      ∃ q e, h = some q ∧ out = .failed e ∧ q.body = code ∧ q.entry e m₁ = start := by
  cases recovers with
  | skipped skip =>
    constructor
    · rintro ⟨v, hv, -⟩
      cases hv
    · rintro ⟨q, e, rfl, rfl, -⟩
      rcases skip with skip | ⟨flow, skip⟩ <;> cases skip
  | @entered q e _ _ _ ran =>
    constructor
    · rintro ⟨v, hv, rfl, rfl⟩
      cases List.mem_singleton.mp hv
      exact ⟨q, e, rfl, rfl, rfl, rfl⟩
    · rintro ⟨_, _, hq, he, rfl, rfl⟩
      cases hq
      cases he
      exact ⟨_, List.mem_singleton_self _, rfl, rfl⟩

end Recovers

/-! ### All layers -/

namespace Unwinds

/-- All blocks have run to their ends. -/
theorem ran (unwinds : Unwinds cx body m layers visits out m₁) :
    ∀ v ∈ visits, Finishes cx v.code v.start v.outcome v.finish := by
  induction unwinds with
  | body ran => exact List.forall_mem_singleton.mpr ran
  | layer inside recovers ran ih =>
    refine List.forall_mem_append.mpr ⟨ih, List.forall_mem_append.mpr ⟨recovers.ran, ?_⟩⟩
    exact List.forall_mem_singleton.mpr ran

/-- The first block begins with the machine at which the nest begins. -/
theorem first (unwinds : Unwinds cx body m layers visits out m₁) :
    visits.head?.map (·.start) = some m := by
  induction unwinds with
  | body ran => rfl
  | layer inside recovers ran ih =>
    obtain ⟨v, hv, hstart⟩ := Option.map_eq_some_iff.mp ih
    rw [List.head?_append, hv]
    exact congrArg some hstart

/-- The last block ends with the machine at which the nest ends. -/
theorem final (unwinds : Unwinds cx body m layers visits out m₁) :
    visits.getLast?.map (·.finish) = some m₁ := by
  cases unwinds with
  | body ran => rfl
  | layer inside recovers ran => simp

theorem linked (unwinds : Unwinds cx body m layers visits out m₁) :
    visits.IsChain fun before after => after.Follows before := by
  induction unwinds with
  | body ran => exact List.isChain_singleton _
  | layer inside recovers ran ih =>
    refine List.isChain_append.mpr ⟨ih, recovers.linked rfl, fun before hbefore => ?_⟩
    have hfinal := inside.final
    rw [Option.mem_def.mp hbefore] at hfinal
    exact recovers.follows rfl (Option.some.inj hfinal)

/-- No block ranks after the FINALLY of the outermost layer. -/
theorem rank_le (unwinds : Unwinds cx body m layers visits out m₁) :
    ∀ v ∈ visits, v.segment.rank ≤ 2 * layers.length := by
  induction unwinds with
  | body ran => exact List.forall_mem_singleton.mpr (Nat.le_refl 0)
  | layer inside recovers ran ih =>
    intro v hv
    rw [List.length_cons]
    rcases List.mem_append.mp hv with hv | hv
    · have := ih v hv
      omega
    · exact (recovers.rank_lt rfl v hv).2

/-- The blocks run in the order of their ranks, so none of them runs twice. -/
theorem order (unwinds : Unwinds cx body m layers visits out m₁) :
    visits.Pairwise fun before after => before.segment.rank < after.segment.rank := by
  induction unwinds with
  | body ran => exact List.pairwise_singleton _ _
  | layer inside recovers ran ih =>
    refine List.pairwise_append.mpr ⟨ih, recovers.order rfl, fun before hbefore after hafter => ?_⟩
    exact Nat.lt_of_le_of_lt (inside.rank_le before hbefore) (recovers.rank_lt rfl after hafter).1

/-- Each FINALLY runs once, the innermost one first. -/
theorem once (unwinds : Unwinds cx body m layers visits out m₁) :
    (visits.filter (·.segment.isCleanup)).map (·.code) = (layers.map (·.cleanup)).reverse := by
  induction unwinds with
  | body ran => rfl
  | @layer l inner visits handled _ _ _ _ _ _ inside recovers ran ih =>
    have hhandled : handled.filter (·.segment.isCleanup) = [] :=
      List.filter_eq_nil_iff.mpr fun v hv => by simp [recovers.segment_eq v hv, Segment.isCleanup]
    rw [List.filter_append, List.filter_append, hhandled, List.map_append, ih, List.map_cons,
      List.reverse_cons]
    rfl

/-- The nest ends with what is pending after its last block. -/
theorem outcome (unwinds : Unwinds cx body m layers visits out m₁) :
    out = pendingAfter visits := by
  induction unwinds with
  | body ran => rfl
  | layer inside recovers ran ih =>
    unfold pendingAfter at ih ⊢
    rw [List.foldl_append, ← ih, List.foldl_append, recovers.pending]
    rfl

/-- A nest that unwinds ends so. -/
theorem finishes (unwinds : Unwinds cx body m layers visits out m₁) :
    Finishes cx (nest body layers) m out m₁ :=
  (finishes_nest_iff cx body layers m out m₁).mpr ⟨visits, unwinds⟩

/-- The handler of a layer runs if what the layer guards fails, and only then; it begins with the
failure in its variable. -/
theorem handler_iff (unwinds : Unwinds cx body m layers visits out m₁) (outer : List Layer)
    (l : Layer) (inner : List Layer) (code : List Stmt) (start : Machine)
    (hlayers : layers = outer ++ l :: inner) :
    (∃ v ∈ visits, v.segment = .handler inner.length ∧ v.code = code ∧ v.start = start) ↔
      ∃ (h : Handler) (e : Failure) (m' : Machine), l.handler = some h ∧
        Finishes cx (nest body inner) m (.failed e) m' ∧ h.body = code ∧ h.entry e m' = start := by
  induction unwinds generalizing outer with
  | body ran => simp at hlayers
  | @layer l' inner' visits handled out out' last m₁ m₂ m₃ inside recovers ran ih =>
    cases outer with
    | nil =>
      obtain ⟨rfl, rfl⟩ := List.cons.inj hlayers
      constructor
      · rintro ⟨v, hv, hsegment, hcode, hstart⟩
        have hhandled : v ∈ handled := by
          rcases List.mem_append.mp hv with hv | hv
          · have hrank := inside.rank_le v hv
            rw [hsegment] at hrank
            exact absurd hrank (Nat.not_succ_le_self _)
          · refine (List.mem_append.mp hv).resolve_right fun hv => ?_
            rw [List.mem_singleton.mp hv] at hsegment
            cases hsegment
        obtain ⟨h, e, hhandler, rfl, hentered⟩ :=
          (recovers.entered_iff code start).mp ⟨v, hhandled, hcode, hstart⟩
        exact ⟨h, e, m₁, hhandler, inside.finishes, hentered⟩
      · rintro ⟨h, e, m', hhandler, hfailed, hentered⟩
        obtain ⟨rfl, rfl⟩ := hfailed.unique inside.finishes
        obtain ⟨v, hv, hboth⟩ :=
          (recovers.entered_iff code start).mpr ⟨h, e, hhandler, rfl, hentered⟩
        refine ⟨v, ?_, recovers.segment_eq v hv, hboth⟩
        exact List.mem_append_right _ (List.mem_append_left _ hv)
    | cons l₀ outer =>
      obtain ⟨-, rfl⟩ := List.cons.inj hlayers
      rw [← ih outer rfl]
      constructor
      · rintro ⟨v, hv, hsegment, hboth⟩
        -- The blocks of the outermost layer rank after those of the layer in question.
        refine ⟨v, (List.mem_append.mp hv).resolve_right fun hv => ?_, hsegment, hboth⟩
        have hrank := (recovers.rank_lt rfl v hv).1
        rw [hsegment] at hrank
        change 2 * (outer ++ l :: inner).length < 2 * inner.length + 1 at hrank
        rw [List.length_append, List.length_cons] at hrank
        omega
      · rintro ⟨v, hv, hboth⟩
        exact ⟨v, List.mem_append_left _ hv, hboth⟩

/-- If each FINALLY ends normally, the outcome is that of the body or of the last handler. -/
theorem decided (unwinds : Unwinds cx body m layers visits out m₁)
    (hnormal : ∀ v ∈ visits, v.segment.isCleanup → v.outcome = .ended .normal) :
    out.DecidedBy (visits.filter (!·.segment.isCleanup)) := by
  induction unwinds with
  | body ran => exact ⟨[], _, rfl, rfl, fun _ hv => absurd hv List.not_mem_nil⟩
  | @layer l inner visits handled out out' last m₁ m₂ m₃ inside recovers ran ih =>
    obtain ⟨hvisits, hlayer⟩ := List.forall_mem_append.mp hnormal
    have hlast : last = .ended .normal := hlayer _ (List.mem_append_right _ (.head _)) rfl
    have hhandled : handled.filter (!·.segment.isCleanup) = handled :=
      List.filter_eq_self.mpr fun v hv => by simp [recovers.segment_eq v hv, Segment.isCleanup]
    subst hlast
    rw [List.filter_append, List.filter_append, hhandled]
    show out'.DecidedBy (_ ++ (handled ++ []))
    rw [List.append_nil]
    exact recovers.decided (ih hvisits)

/-- **What is true of the blocks that have run.** -/
theorem unwound (unwinds : Unwinds cx body m layers visits out m₁) :
    Unwound cx body layers m visits out m₁ where
  ran := unwinds.ran
  linked := unwinds.linked
  first := unwinds.first
  final := unwinds.final
  order := unwinds.order
  once := unwinds.once
  handler_iff := unwinds.handler_iff
  outcome := unwinds.outcome
  decided := unwinds.decided

end Unwinds

end Unwinds

/-- **A nest of TRYs unwinds from the inside outward, and each FINALLY runs once.**  Whatever the body
and the handlers do, a nest ends with an outcome and leaves a machine just if its blocks run to their
ends in this way: first the body, then in each layer the handler, if there is one and what it guards
has failed, and the FINALLY in any case; each with the machine that the block before it has left.  A
handler is not entered after a RETURN, a BREAK, a CONTINUE or an EXIT.  The outcome of the nest is that
of the body or of the last handler that has been entered, and what came before that are failures; but
a FINALLY that does not end normally puts its own outcome in place of what is pending. -/
theorem finally_runs_once (cx : Context) (body : List Stmt) (layers : List Layer) (m : Machine)
    (out : Outcome) (m₁ : Machine) :
    (Finishes cx (nest body layers) m out m₁ ↔
      ∃ visits, Unwinds cx body m layers visits out m₁) ∧
    ∀ visits, Unwinds cx body m layers visits out m₁ →
      Unwound cx body layers m visits out m₁ :=
  ⟨finishes_nest_iff cx body layers m out m₁, fun _ unwinds => unwinds.unwound⟩

/-- Two TRYs around a THROW, of which the inner one throws again: both run their FINALLYs, and the
second failure gets out. -/
theorem finally_runs_once_rethrown :
    let body : List Stmt := [.raise (.str "first")]
    let again : Handler := ⟨none, [.raise (.str "second")]⟩
    let inner : List Stmt := [.assign (.ofString "A") (.str "inner")]
    let outer : List Stmt := [.assign (.ofString "A") (.str "outer")]
    let layers : List Layer := [{ cleanup := outer }, { handler := some again, cleanup := inner }]
    ∃ visits m₁, Unwinds {} body {} layers visits (.failed (.thrown "second")) m₁ ∧
      (visits.filter (·.segment.isCleanup)).map (·.code) = [inner, outer] := by
  intro body again inner outer layers
  obtain ⟨m₁, hended⟩ : ∃ m₁, (engine {} 9).block (nest body layers) {} =
    Outcome.leaving (.failed (.thrown "second")) m₁ := ⟨_, rfl⟩
  obtain ⟨visits, unwinds⟩ :=
    (finally_runs_once {} body layers {} _ m₁).1.mp (.of_eq hended)
  have unwound := (finally_runs_once {} body layers {} _ m₁).2 visits unwinds
  exact ⟨visits, m₁, unwinds, unwound.once⟩

end BasicScript
