import BasicScript.Proofs.Simulation

/-!
# Debug mode only observes

In debug mode a machine writes notes: where a map has no such member, where a function returns
something else than it was declared to, at a REDIM and at a BREAKPOINT.  DEBUGPRINT apart, whose
expression is not even evaluated without debug mode, a run in debug mode does the same as the run
without it, note by note.

* `Journal.withoutNotes`: what is left of a journal when notes are taken out.
* `noteSimulation`: the two runs have the same scopes, and journals that differ in notes.
* `debug_only_observes` compares the two runs of a program.
-/

namespace BasicScript

/-- Code has no DEBUGPRINT. -/
def Rule.noDebugPrint : Rule where
  allows _
    | .debugPrint => false
    | _ => true

/-- The event is no note. -/
def Event.isOutward : Event → Bool
  | .diagnosed _ => false
  | _ => true

namespace Journal

/-- The events that are no notes, in order. -/
def withoutNotes (j : Journal) : List Event :=
  j.toList.filter Event.isOutward

/-- Notes are left out of a journal event by event. -/
theorem withoutNotes_append (j : Journal) (events : List Event) :
    withoutNotes (j ++ events) = j.withoutNotes ++ events.filter Event.isOutward := by
  unfold withoutNotes
  rw [Array.toList_appendList, List.filter_append]

/-- A note is left out. -/
theorem withoutNotes_noted (j : Journal) (debug : Bool) (text : String) :
    (j.noted debug text).withoutNotes = j.withoutNotes := by
  cases debug with
  | false => rfl
  | true =>
    have hnote : [Event.diagnosed text].filter Event.isOutward = [] := rfl
    show withoutNotes (j ++ [Event.diagnosed text]) = _
    rw [withoutNotes_append, hnote, List.append_nil]

/-- What is read off a journal without its notes is read off all of it, if nothing is read off
notes. -/
theorem filterMap_withoutNotes {β : Type} (j : Journal) {f : Event → Option β}
    (hf : ∀ text, f (.diagnosed text) = none) :
    j.withoutNotes.filterMap f = j.toList.filterMap f := by
  unfold withoutNotes
  rw [List.filterMap_filter]
  congr 1
  funext event
  cases event with
  | diagnosed text => exact (hf text).symm
  | _ => rfl

section Same

variable {j j' : Journal} (h : j'.withoutNotes = j.withoutNotes)
include h

/-- Two journals with the same events but for notes have the same printed lines. -/
theorem printed_eq_of_withoutNotes : j'.printed = j.printed := by
  unfold printed
  rw [← filterMap_withoutNotes j' fun _ => rfl, ← filterMap_withoutNotes j fun _ => rfl, h]

/-- They have the same calls of natives. -/
theorem called_eq_of_withoutNotes : j'.called = j.called := by
  unfold called
  rw [← filterMap_withoutNotes j' fun _ => rfl, ← filterMap_withoutNotes j fun _ => rfl, h]

/-- They have the same writes to hooks. -/
theorem written_eq_of_withoutNotes : j'.written = j.written := by
  unfold written
  rw [← filterMap_withoutNotes j' fun _ => rfl, ← filterMap_withoutNotes j fun _ => rfl, h]

end Same

end Journal

/-- The two runs have the same scopes, and their journals differ in notes alone. -/
def noteSimulation : Simulation where
  rule := .noDebugPrint
  chain c c' := c' = c
  journal j j' := j'.withoutNotes = j.withoutNotes

/-- What is done to the same scopes has the same outcome. -/
theorem noteSimulation_carries {α : Type} (f : Chain → Except Failure α × Chain) :
    noteSimulation.Carries f := by
  rintro c _ rfl
  exact .same rfl

/-- The two contexts may differ in their debug mode and in nothing else that a run looks at. -/
theorem noteSimulation_sound {cx cx' : Context} (hhost : cx'.host = cx.host)
    (helements : cx'.config.maxElements = cx.config.maxElements)
    (hdepth : cx'.config.maxDepth = cx.config.maxDepth) : noteSimulation.Sound cx cx' where
  host := hhost
  maxElements := helements
  maxDepth := hdepth
  debugPrint := nofun
  log := by
    intro j j' events h
    show Journal.withoutNotes (j' ++ events) = Journal.withoutNotes (j ++ events)
    rw [Journal.withoutNotes_append, Journal.withoutNotes_append, h]
  note := by
    intro j j' text h
    show (j'.noted _ text).withoutNotes = (j.noted _ text).withoutNotes
    rw [Journal.withoutNotes_noted, Journal.withoutNotes_noted, h]
  journal_alone := fun _ => rfl
  chain_alone := fun _ => rfl
  lookup? := by rintro c _ rfl; rfl
  isConst := by rintro c _ rfl; rfl
  snapshot := by rintro c _ rfl; rfl
  vars := by rintro c _ rfl; rfl
  get := fun name => noteSimulation_carries fun c => (c.get name, c)
  bind := by rintro c _ name v rfl; rfl
  optionExplicit := by rintro c _ p - rfl; rfl
  addGlobal := by rintro c _ name rfl; rfl
  define := fun name v => noteSimulation_carries fun c => (c.define name v).swap
  set := fun _ _ => noteSimulation_carries _
  defineLocal := fun _ _ => noteSimulation_carries _
  defineConst := fun _ _ => noteSimulation_carries _
  openBlock := by rintro c _ rfl; rfl
  openResource := by rintro c _ name v rfl; rfl
  openFrame := by rintro c _ rfl; rfl
  close := by rintro c _ rfl; rfl
  openLambda := by rintro c _ bindings rfl; rfl
  closeLambda := by rintro c _ c₁ _ rfl rfl; rfl

/-- **Debug mode only observes.**  A program without DEBUGPRINT is run on a new machine with any
host and any settings, once in debug mode and once not.  With the same fuel both runs have the same
verdict, and they leave the same scopes, the same printed lines, the same calls of natives and the
same writes that hooks have seen, each in the same order. -/
theorem debug_only_observes (host : Host) (config : Config) (fuel : Nat) (p : Program)
    (hp : Rule.noDebugPrint.program p) :
    let quiet := { config with debug := false }
    let loud := { config with debug := true }
    let r := (Machine.start quiet).run ⟨host, quiet⟩ fuel p
    let r' := (Machine.start loud).run ⟨host, loud⟩ fuel p
    r'.1 = r.1 ∧ r'.2.chain = r.2.chain ∧ r'.2.journal.printed = r.2.journal.printed ∧
      r'.2.journal.called = r.2.journal.called ∧ r'.2.journal.written = r.2.journal.written := by
  intro quiet loud r r'
  have S : noteSimulation.Sound ⟨host, quiet⟩ ⟨host, loud⟩ := noteSimulation_sound rfl rfl rfl
  have start : noteSimulation.Near (Machine.start quiet) (Machine.start loud) :=
    .intro _ _ (.start _ quiet) rfl rfl
  rcases S.run fuel start p hp with ⟨e, m, -, extra⟩ | ⟨same, near⟩
  · exact extra.elim
  · have hjournal := near.journal
    exact ⟨same, near.chain, Journal.printed_eq_of_withoutNotes hjournal,
      Journal.called_eq_of_withoutNotes hjournal, Journal.written_eq_of_withoutNotes hjournal⟩

/-- A function that does not return what it was declared to, a REDIM and a BREAKPOINT, each of them
with a note in debug mode. -/
def notedProgram : Program :=
  ⟨[.procedure (.function (.ofString "F") (some (.ofString "STRING"))
      ⟨[], [.returnWith (some (.int 1))]⟩),
    .define (.ofString "X") (.call (.ofString "F") [] []),
    .redim (.ofString "A") [.var (.ofString "X")] false, .breakpoint]⟩

/-- The example runs alike with and without debugging, and only while debugging it leaves its three
notes. -/
theorem debug_only_observes_noted :
    Rule.noDebugPrint.program notedProgram ∧
    let r := (Machine.start { debug := false }).run ⟨{}, { debug := false }⟩ 9 notedProgram
    let r' := (Machine.start { debug := true }).run ⟨{}, { debug := true }⟩ 9 notedProgram
    r'.1 = r.1 ∧ r'.2.chain = r.2.chain ∧
      r.2.journal.diagnosed.length = 0 ∧ r'.2.journal.diagnosed.length = 3 := by
  have hp : Rule.noDebugPrint.program notedProgram := by decide
  have observed := debug_only_observes {} {} 9 notedProgram hp
  exact ⟨hp, observed.1, observed.2.1, by decide +kernel, by decide +kernel⟩

end BasicScript
