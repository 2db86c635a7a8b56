import BasicScript.Proofs.Lockstep.Evaluator

/-!
# Keys of maps are in normal form

A field is found by the normal form of its name, so a map with a key in any other form has a field
that is hard to find and easy to have twice.  Maps are built and extended in many places: by
literals and assignments, as new objects, lambdas, method objects and namespaces, as caught failures
and as the entries of a FOR EACH loop.  This file shows that in a run on a new machine none of them
ever gets a key that is not in normal form, as long as the host keeps to that in its answers and in
the names it hands in.  Two kinds of names come from the host as they stand: those of the fields of
its types, and those of the globals it binds before a program runs.

* `Value.Normal`: all keys in a value are in normal form.
* `Host.AnswersNormally`: what natives and hooks answer is normal if what they are given is.
* `Host.Tidy`: the names that the host has registered are normal too.
* `normalWatch` watches for values that are not normal, at every moment of a run.
* `map_keys_normal` is the main statement, `raw_names_become_keys` says why the names matter.
-/

namespace BasicScript

variable {α : Type}

/-! ## Normal values -/

namespace Value

/-- A key in its normal form. -/
def IsNormalKey (k : String) : Prop :=
  normalizeKey k = k

/-- Every key in a value is in normal form. -/
abbrev Normal (v : Value) : Prop :=
  v.Keyed IsNormalKey

/-- What a name is brought into is a normal form. -/
theorem isNormalKey_normalizeKey (s : String) : IsNormalKey (normalizeKey s) := by
  unfold IsNormalKey
  by_cases h : s.toList.head? = some '_'
  · have hkept : normalizeKey s = s := if_pos h
    rw [hkept, hkept]
  · have hupper : normalizeKey s = Text.upper s := if_neg h
    rw [hupper, normalizeKey_upper]

end Value

open Value (IsNormalKey isNormalKey_normalizeKey)

/-- A flow that carries a value carries a normal one. -/
def Flow.Normal (f : Flow) : Prop :=
  ∀ v, f = .returned v → v.Normal

/-- A signal that carries a value carries a normal one. -/
def Halt.Normal (h : Halt) : Prop :=
  ∀ f, h = .signal f → f.Normal

/-! ## Hosts -/

/-- The namespaces were registered one by one. -/
inductive Namespaces.Registered : Namespaces → Prop where
  | none : Registered []
  | register {ns : Namespaces} (before : Registered ns) (name : String)
    (methods : List (String × String)) : Registered (ns.register name methods)

/-- Natives and hooks that are given normal values answer with normal ones. -/
structure Host.AnswersNormally (host : Host) : Prop where
  natives : ∀ name f, host.natives.find? name = some f →
    ∀ args, (∀ v ∈ args, v.Normal) → ∀ v, (f.run args).result = .ok v → v.Normal
  hooks : ∀ hook ∈ host.hooks.read, ∀ object member v, object.Normal →
    hook object member = some v → v.Normal

/-- The natives and hooks of a host answer normally, and its registries hold normal names.  For
namespaces that is no restriction: registering is the only way to get one, and puts the names of the
methods in upper case.  For types it is one: a type is registered as it stands, so its fields must
have normal names already, as they have if they were given in upper case. -/
structure Host.Tidy (host : Host) : Prop extends host.AnswersNormally where
  namespaces : host.namespaces.Registered
  types : host.types.Keyed IsNormalKey

/-- The methods of all namespaces have names in normal form. -/
theorem Namespaces.Registered.keyed {ns : Namespaces} (h : ns.Registered) :
    ns.Keyed IsNormalKey := by
  induction h with
  | none => exact nofun
  | register before name methods ih => exact ih.register isNormalKey_normalizeKey name methods

/-- A tidy host does what is asked of a host for its keys. -/
theorem Host.Tidy.keyed {host : Host} (h : host.Tidy) : host.Keyed IsNormalKey where
  natives := by
    intro name args hargs
    unfold Natives.call
    split
    · next f hf =>
      unfold Native.invoke
      split
      · split
        · exact .error _
        · exact h.natives name f hf args hargs
      · exact h.natives name f hf args hargs
    · exact .error _
  read := h.hooks
  types := h.types
  namespaces := h.namespaces.keyed

/-! ## The run beside itself -/

/-- A run beside itself on machines with normal keys. -/
def keyLockstep : Lockstep where
  rule := ⟨fun _ _ => true⟩
  near _ m m' := m' = m ∧ m.Keyed IsNormalKey
  step _ _ _ := True
  flow _ := Flow.Normal
  halt := Halt.Normal
  key := IsNormalKey

/-- There is no condition on the code. -/
theorem keyLockstep_lax : keyLockstep.rule.Lax := fun _ _ => rfl

/-- A flow or a signal that carries a value carries a normal one. -/
theorem keyLockstep_admits (cx : Context) : keyLockstep.Admits cx where
  flow_normal := nofun
  flow_returned := by
    intro p v hv w hw
    cases hw
    exact hv
  flow_keyed := fun p v h => h v rfl
  flow_broke := fun _ _ => nofun
  flow_continued := fun _ _ => nofun
  flow_exited := fun _ _ _ => nofun
  flow_signal := fun p f h => h f rfl
  flow_loop := by
    intro p t f f' h hstep v hv
    cases hv
    cases f with
    | returned w =>
      cases hstep
      exact h v rfl
    | exited t' =>
      unfold Flow.stepOf at hstep
      dsimp only at hstep
      split at hstep <;> cases hstep
    | _ => cases hstep
  flow_sub := fun f h => .inr fun f' hf => by cases hf; exact h
  flow_function := fun f h => .inr fun f' hf => by cases hf; exact h
  flow_main := fun f h => .inr nofun
  halt_failed := fun _ _ => nofun
  halt_exhausted := nofun
  halt_native := fun _ _ _ _ => nofun

section Actions

variable {l : Level}

theorem keeps_modify_keyed {f : Machine → Machine}
    (hf : ∀ m : Machine, m.Keyed IsNormalKey → (f m).Keyed IsNormalKey) :
    keyLockstep.Keeps l (modify f) (modify f) := by
  rintro _ m ⟨rfl, hm⟩
  exact .ok trivial ⟨rfl, hf m hm⟩ trivial

/-- What is done to scopes. -/
theorem rel_onChain_keyed {f : Chain → Except Failure α × Chain} {Q : α → Prop}
    (hf : ∀ c : Chain, c.Keyed IsNormalKey → Gives Q (f c).1 ∧ (f c).2.Keyed IsNormalKey) :
    keyLockstep.Rel l (Run.onChain f) (Run.onChain f) Q := by
  rintro _ m ⟨rfl, hm⟩
  obtain ⟨hresult, hchain⟩ := hf m.chain hm.chain
  unfold Run.onChain
  generalize f m.chain = r at hresult hchain
  obtain ⟨_ | a, c⟩ := r
  · exact .error nofun ⟨rfl, hchain, hm.types⟩ trivial
  · exact .ok (hresult a rfl) ⟨rfl, hchain, hm.types⟩ trivial

/-- A write that may fail. -/
theorem keeps_writeChain_keyed {f : Chain → Except Failure Chain}
    (hf : ∀ c : Chain, c.Keyed IsNormalKey → Gives (Chain.Keyed IsNormalKey) (f c)) :
    keyLockstep.Keeps l (Run.writeChain f) (Run.writeChain f) := by
  rw [Run.writeChain_eq]
  refine rel_onChain_keyed fun c hc => ⟨fun _ _ => trivial, ?_⟩
  have hwritten := hf c hc
  unfold Chain.tryWrite
  cases hr : f c with
  | ok c₁ => exact hwritten c₁ hr
  | error e => exact hc

/-- A scope is opened and closed later. -/
theorem bracket_keyed {outer start last : Level} {enter : Machine → Machine}
    {leave : Machine → Machine → Machine} {m : Machine} (henter : (enter m).Keyed IsNormalKey)
    (hleave : ∀ m₁ : Machine, m₁.Keyed IsNormalKey → (leave m m₁).Keyed IsNormalKey) :
    keyLockstep.Bracket outer start last enter leave m m where
  enters := ⟨rfl, henter⟩
  near := by
    rintro _ m₁ - ⟨rfl, hm₁⟩
    exact ⟨rfl, hleave m₁ hm₁⟩
  step := fun _ => trivial
  later := fun _ _ => trivial

end Actions

/-- **The elementary actions keep keys normal.** -/
theorem keyLockstep_sound {cx : Context} (hhost : cx.host.Keyed IsNormalKey) :
    keyLockstep.Sound cx cx where
  toAdmits := keyLockstep_admits cx
  host := rfl
  maxElements := rfl
  maxDepth := rfl
  note := by
    intro text
    split
    · exact keeps_modify_keyed fun m hm => ⟨hm.chain, hm.types⟩
    · exact keeps_modify_keyed fun m hm => hm
  debugPrint := fun _ _ => rfl
  key_normal := isNormalKey_normalizeKey
  host_keyed := hhost
  keyed := fun h => h.2
  alike := by rintro l _ m ⟨rfl, -⟩; exact .refl m
  obeys := fun _ => .of_lax keyLockstep_lax
  refl := fun _ => trivial
  trans := fun _ _ => trivial
  near_expr := id
  near_of_expr := fun _ _ h => h
  step_of_expr := fun _ _ _ => trivial
  near_stmt := id
  step_stmt := id
  readVar := fun name => by
    rw [Run.readVar_eq]
    exact rel_onChain_keyed fun c hc => ⟨hc.get name, hc⟩
  log := fun events => keeps_modify_keyed fun m hm => ⟨hm.chain, hm.types⟩
  learn := fun label r _ => keeps_modify_keyed fun m hm => hm.learn label r
  bindItem := fun name v hname hv => keeps_modify_keyed fun m hm =>
    ⟨hm.chain.bind hname hv, hm.types⟩
  bindEntry := fun name v hname hv => keeps_modify_keyed fun m hm =>
    ⟨hm.chain.bind hname hv, hm.types⟩
  optionExplicit := fun _ _ => keeps_modify_keyed fun m hm =>
    ⟨hm.chain.modifyTop (f := ({ · with strict := true })) fun _ hs => hs, hm.types⟩
  addGlobal := fun _ _ n _ _ => keeps_modify_keyed fun m hm =>
    ⟨hm.chain.addGlobal n.name, hm.types⟩
  define := fun name v hname hv => by
    rw [Run.define_eq]
    exact rel_onChain_keyed fun c hc => ⟨fun _ _ => trivial, hc.define hname hv⟩
  set := fun name v hname hv => keeps_writeChain_keyed fun c hc => hc.set hname hv
  defineLocal := fun name v hname hv => keeps_writeChain_keyed fun c hc => hc.defineLocal hname hv
  defineConst := fun name v hname hv => keeps_writeChain_keyed fun c hc => hc.defineConst hname hv
  bindCaught := fun _ x e _ => keeps_modify_keyed fun m hm =>
    ⟨hm.chain.bind (x.key_name isNormalKey_normalizeKey)
      (e.keyed_toValue isNormalKey_normalizeKey), hm.types⟩
  declareType := fun d _ => keeps_modify_keyed fun m hm => by
    split
    · exact hm
    · exact hm.loadType isNormalKey_normalizeKey d
  block := by
    rintro _ m ⟨rfl, hm⟩
    exact bracket_keyed ⟨hm.chain.push (Chain.keyed_newBlock _), hm.types⟩ fun m₁ hm₁ =>
      ⟨hm₁.chain.pop, hm₁.types⟩
  resource := by
    rintro _ m name v hname hv ⟨rfl, hm⟩
    exact bracket_keyed
      ⟨hm.chain.push (Scope.Keyed.bind (Chain.keyed_newBlock _) hname hv), hm.types⟩
      fun m₁ hm₁ => ⟨hm₁.chain.pop, hm₁.types⟩
  frame := by
    rintro _ m ⟨rfl, hm⟩ -
    exact bracket_keyed ⟨hm.chain.push (Chain.keyed_newFrame _), hm.types⟩ fun m₁ hm₁ =>
      ⟨hm₁.chain.pop, hm₁.types⟩
  lambda := by
    rintro _ m bindings hbindings ⟨rfl, hm⟩ -
    -- The frame starts with what the lambda has seen; the scopes of the caller come back.
    have hframe : (({ strict := m.chain.root.strict } : Scope).bindAll bindings).Keyed IsNormalKey :=
      Scope.Keyed.bindAll Table.Keyed.nil hbindings
    exact bracket_keyed ⟨⟨List.forall_mem_singleton.mpr hframe, hm.chain.root⟩, hm.types⟩
      fun m₁ hm₁ => ⟨⟨hm.chain.inner, hm₁.chain.root⟩, hm₁.types⟩

/-! ## Runs -/

/-- Whatever a program can get hold of at a moment is normal: what stands in the scopes, what a
member of a normal object stands for, new objects and namespaces. -/
structure Machine.Normal (cx : Context) (m : Machine) : Prop where
  scopes : m.chain.Keyed IsNormalKey
  members : ∀ object member v, object.Normal → m.member? cx object member = some v → v.Normal
  objects : ∀ name v, m.instance? cx name = some v → v.Normal
  namespaces : ∀ name v, cx.host.namespaces.object? name = some v → v.Normal

/-- What a program can get hold of on a machine with normal keys is normal. -/
theorem Machine.Keyed.normal {cx : Context} {m : Machine} (hhost : cx.host.Keyed IsNormalKey)
    (h : m.Keyed IsNormalKey) : m.Normal cx where
  scopes := h.chain
  members _ _ _ hobject hv := member? isNormalKey_normalizeKey hhost hobject hv
  objects _ _ hv := h.instance? isNormalKey_normalizeKey hhost hv
  namespaces _ _ hv := hhost.namespaces.object? isNormalKey_normalizeKey hv

/-- What has been computed is normal, and so is the machine afterwards. -/
def NormalOutcome (cx : Context) (Q : α → Prop) : EStateM.Result Halt Machine α → Prop
  | .ok a m => Q a ∧ m.Normal cx
  | .error h m => h.Normal ∧ m.Normal cx

/-- Watches for values that are not normal. -/
def normalWatch (cx : Context) : Watch where
  eval _ m r := m.Normal cx ∧ NormalOutcome cx Value.Normal r
  exec _ m r := m.Normal cx ∧ NormalOutcome cx Flow.Normal r

section Ends

variable {cx : Context} {l : Level} {m : Machine} {Q : α → Prop}
  {r r' : EStateM.Result Halt Machine α}

/-- A run beside itself ends as it does. -/
theorem eq_of_ends_keyed (h : keyLockstep.Ends l m Q r r') : r' = r := by
  cases h with
  | ok result near => rw [near.1]
  | error halts near => rw [near.1]
  | early early => exact early.elim

/-- A run beside itself ends with a normal value on a normal machine. -/
theorem normalOutcome_of_ends (hhost : cx.host.Keyed IsNormalKey)
    (h : keyLockstep.Ends l m Q r r') : NormalOutcome cx Q r' := by
  cases h with
  | ok result near =>
    obtain ⟨rfl, hm₁⟩ := near
    exact ⟨result, hm₁.normal hhost⟩
  | error halts near =>
    obtain ⟨rfl, hm₁⟩ := near
    exact ⟨halts, hm₁.normal hhost⟩
  | early early => exact early.elim

end Ends

/-- The watch sees nothing that is not normal. -/
theorem keyLockstep_shows {cx : Context} (hhost : cx.host.Keyed IsNormalKey) :
    keyLockstep.Shows (normalWatch cx) where
  eval := by
    rintro e _ m r r' - ⟨rfl, hm⟩ hends
    exact ⟨hm.normal hhost, normalOutcome_of_ends hhost hends⟩
  exec := by
    rintro p s _ m r r' - ⟨rfl, hm⟩ hends
    exact ⟨hm.normal hhost, normalOutcome_of_ends hhost hends⟩

/-- A new machine into whose root the host has bound some globals, each name as it stands. -/
def Machine.seeded (config : Config) (globals : Table Value) : Machine :=
  { chain := { root := (Machine.start config).chain.root.bindAll globals } }

/-- A machine with normal globals has loaded a program. -/
theorem keyed_loaded (config : Config) {globals : Table Value}
    (hglobals : Table.Keyed IsNormalKey globals) (p : Program) :
    let adopted := (Machine.seeded config globals).adopt p
    (adopted.2.load adopted.1).Keyed IsNormalKey := by
  intro adopted
  have hroot := Scope.Keyed.bindAll (s := (Machine.start config).chain.root) Table.Keyed.nil hglobals
  refine Machine.Keyed.load isNormalKey_normalizeKey ?_ _
  exact ⟨⟨nofun, hroot⟩, nofun⟩

/-- **Keys of maps are in normal form.**  A program is run on a new machine by a host whose natives
and hooks answer normal values with normal ones, whose types have fields with normal names, and
which has bound no globals or only normal ones with normal names.  Then, before and after every
evaluation and every execution in the run, all scopes, all members of normal objects, new objects
and namespaces are normal; every value that is computed, returned or carried by a signal is normal;
and the machine after the run is again such a machine. -/
theorem map_keys_normal (cx : Context) (hhost : cx.host.Tidy) (config : Config)
    (globals : Table Value) (hglobals : ∀ entry ∈ globals, IsNormalKey entry.1 ∧ entry.2.Normal)
    (p : Program) (fuel : Nat) :
    let fresh := Machine.seeded config globals
    let adopted := fresh.adopt p
    let loaded := adopted.2.load adopted.1
    (normalWatch cx).Passes cx fuel (fun g => g.topLevel adopted.1.statements) loaded ∧
    (fresh.run cx fuel p).2.Normal cx := by
  intro fresh adopted loaded
  have S := keyLockstep_sound hhost.keyed
  have hloaded : keyLockstep.near .stmt loaded loaded := ⟨rfl, keyed_loaded config hglobals p⟩
  have hbody : keyLockstep.rule.stmts ⟨.main, []⟩ adopted.1.statements :=
    keyLockstep_lax.stmts _ _
  refine ⟨?_, ?_⟩
  · intro alarm
    have engines := S.watched (keyLockstep_shows hhost.keyed) alarm fuel
    exact eq_of_ends_keyed (engines.topLevel S _ hbody loaded loaded hloaded)
  · have ends := (S.engines fuel).topLevel S _ hbody loaded loaded hloaded
    have outcome := normalOutcome_of_ends hhost.keyed ends
    change (Run.verdict ((engine cx fuel).topLevel adopted.1.statements) loaded).2.Normal cx
    unfold Run.verdict
    generalize (engine cx fuel).topLevel adopted.1.statements loaded = r at outcome
    cases r with
    | ok u m => exact outcome.2
    | error h m => cases h <;> exact outcome.2

/-- A host with a native that collects its arguments, a namespace for it, a type, and a hook by which
every object is its own `SELF`. -/
def boxHost : Host where
  natives := Natives.replace [] "Collect" .variadic fun args => { result := .ok (.array args) }
  namespaces := Namespaces.register [] "Box" [("fill", "Collect")]
  types := TypeTable.register []
    (TypeInfo.canonical { name := "Point", fields := [("x", some "Integer")] })
  hooks := { read := [fun object member => if member = "SELF" then some object else none] }

/-- A point gets a second field, is put into an array by the namespace, and is seen by a lambda. -/
def boxedPoint : Program :=
  ⟨[.assign (.ofString "p") (.call (.ofString "point") [] []),
    .assignMember (.var (.ofString "p")) (.ofString "y") (.map [(.str "inner", .int 1)]),
    .assign (.ofString "a") (.methodCall (.var (.ofString "box")) (.ofString "fill")
      [.member (.var (.ofString "p")) (.ofString "self")]),
    .assign (.ofString "f") (.lambda 0 ⟨[], [.returnWith (some (.var (.ofString "p")))]⟩)]⟩

/-- The run of that program leaves a normal machine, and the point has got both of its fields. -/
theorem map_keys_normal_boxedPoint :
    let cx : Context := { host := boxHost }
    let after := ((Machine.seeded {} [("ORIGIN", .int 0)]).run cx 30 boxedPoint).2
    boxHost.Tidy ∧ after.Normal cx ∧ (after.global? "p").map propertiesOf = some ["X", "Y"] := by
  intro cx after
  have hhost : boxHost.Tidy := by
    refine ⟨⟨?_, ?_⟩, .register .none _ _, ?_⟩
    · intro name f hf args hargs v hv
      have hcollect : f.run = fun args => { result := .ok (.array args) } := by
        unfold Natives.find? boxHost Natives.replace Table.insert Table.get? at hf
        split at hf
        · cases hf
          rfl
        · cases hf
      rw [hcollect] at hv
      cases hv
      exact .array hargs
    · intro hook hhook object member v hobject hv
      cases List.mem_singleton.mp hhook
      dsimp only at hv
      split at hv
      · cases hv
        exact hobject
      · cases hv
    · exact TypeTable.Keyed.register (List.forall_mem_nil _)
        (TypeInfo.keyed_canonical isNormalKey_normalizeKey _)
  have hglobals : ∀ entry ∈ [("ORIGIN", Value.int 0)], IsNormalKey entry.1 ∧ entry.2.Normal :=
    List.forall_mem_singleton.mpr ⟨isNormalKey_normalizeKey "origin", .int 0⟩
  exact ⟨hhost, (map_keys_normal cx hhost {} _ hglobals boxedPoint 30).2, by decide +kernel⟩

/-- A name in lower case becomes a key if the host hands it in, though natives and hooks answer
normally: the name of a field in a new object, and the name of a global in the closure of a
lambda. -/
theorem raw_names_become_keys :
    let point : TypeInfo := { name := "POINT", fields := [("x", some "INTEGER")] }
    let cx : Context := { host := { types := TypeTable.register [] point } }
    let construct : Program := ⟨[.assign (.ofString "r") (.call (.ofString "point") [] [])]⟩
    let close : Program := ⟨[.assign (.ofString "r") (.lambda 0 ⟨[], []⟩)]⟩
    cx.host.AnswersNormally ∧
    (∃ object, ((Machine.start {}).run cx 10 construct).2.global? "r" = some object ∧
      ¬ object.Normal) ∧
    (∃ lambda, ((Machine.seeded {} [("x", .int 1)]).run cx 10 close).2.global? "r" = some lambda ∧
      ¬ lambda.Normal) := by
  intro point cx construct close
  have hx : ¬ IsNormalKey "x" := by
    unfold IsNormalKey
    decide
  let fields : Table Value := [("_type", .str "POINT"), ("x", .int 0)]
  let closure : Table Value := [("x", .int 1)]
  let lambda : Table Value := [("_closure", .map closure), ("_lambdaId", .int (lambdaId 0)),
    ("_paramCount", .int 0), ("_type", .str "Lambda")]
  refine ⟨⟨nofun, nofun⟩, ⟨.map fields, rfl, ?_⟩, ⟨.map lambda, rfl, ?_⟩⟩
  · intro hnormal
    exact hx (Value.keyed_map.mp hnormal _ (.tail _ (.head _))).1
  · intro hnormal
    have hclosure := (Value.keyed_map.mp hnormal _ (.head _)).2
    exact hx (Value.keyed_map.mp hclosure _ (.head _)).1

end BasicScript
