import BasicScript.Proofs.Assignment
import BasicScript.Proofs.CallDepth
import BasicScript.Proofs.Constant
import BasicScript.Proofs.SuperCall
import BasicScript.Proofs.TableOrder

/-!
# What a lambda captures

A lambda takes a copy of the bindings around it.  The copy has the *nearest* binding of each name and
does not look at GLOBAL marks.  A read does: a mark sends it to the root, past all that is bound from
the scope of the mark outward.  The two agree on every name but those of which a mark *hides* a
value, and there the lambda goes on with the hidden value while the code around it reads the root.

* `Chain.nearest?` and `Chain.Hides`.
* `Chain.get?_snapshot`, `Chain.Hides.reads` and `Chain.lookup?_of_not_hides`: a copy and a read,
  scope by scope.
* `eval_readAtOnce`: a lambda that is called as soon as it is made finds what was captured.
* `closure_captures_nearest` is the main statement, and `closure_misses_global` a name that means
  two things.
-/

namespace BasicScript

namespace Chain

/-- The nearest binding of a name, whatever is marked GLOBAL. -/
def nearest? (c : Chain) (name : String) : Option Value :=
  c.scopes.findSome? fun s => Table.get? s.vars name

/-- A GLOBAL mark hides a value of a name: no scope inside that of the mark marks or binds the name,
and from the scope of the mark outward the nearest binding below the root has the value. -/
def Hides (c : Chain) (name : String) (v : Value) : Prop :=
  ∃ (near : List Scope) (s : Scope) (far : List Scope), c.inner = near ++ s :: far ∧
    (∀ t ∈ near, t.decides name = false) ∧ name ∈ s.globals ∧
    (s :: far).findSome? (fun t => Table.get? t.vars name) = some v

section Reading

variable {s root : Scope} {rest : List Scope} {name : String} {v : Value}

/-- In the root the nearest binding is that of the root. -/
theorem nearest?_root (name : String) : nearest? ⟨[], root⟩ name = Table.get? root.vars name := by
  show [root].findSome? _ = _
  cases hroot : Table.get? root.vars name <;> simp [hroot]

/-- The nearest binding is that of the innermost scope, or else of the scopes around it. -/
theorem nearest?_cons (name : String) :
    nearest? ⟨s :: rest, root⟩ name =
      (Table.get? s.vars name).or (nearest? ⟨rest, root⟩ name) := by
  show (s :: scopes ⟨rest, root⟩).findSome? _ = _
  rw [List.findSome?_cons]
  cases Table.get? s.vars name <;> rfl

/-- A copy has the nearest binding of each name. -/
theorem get?_snapshot {c : Chain} (hc : c.Ordered) (name : String) :
    Table.get? c.snapshot name = c.nearest? name := by
  obtain ⟨inner, root⟩ := c
  induction inner with
  | nil => exact (nearest?_root name).symm
  | cons s rest ih =>
    obtain ⟨hs, hrest⟩ := List.forall_mem_cons.mp hc.inner
    have hinside := ih ⟨hrest, hc.root⟩
    show Table.get? (Table.insertAll (snapshot ⟨rest, root⟩) s.vars) name = _
    rw [Table.get?_insertAll hs, hinside, nearest?_cons]

/-- What is hidden outside of a scope that neither marks nor binds the name stays hidden. -/
theorem Hides.inward (hundecided : s.decides name = false) (h : Hides ⟨rest, root⟩ name v) :
    Hides ⟨s :: rest, root⟩ name v := by
  obtain ⟨near, t, far, hsplit, hnear, hmark, hvalue⟩ := h
  refine ⟨s :: near, t, far, congrArg (s :: ·) hsplit, ?_, hmark, hvalue⟩
  exact List.forall_mem_cons.mpr ⟨hundecided, hnear⟩

/-- The innermost scope hides the nearest binding below the root if it marks the name. -/
theorem hides_of_marked (hmark : name ∈ s.globals)
    (hvalue : (s :: rest).findSome? (fun t => Table.get? t.vars name) = some v) :
    Hides ⟨s :: rest, root⟩ name v :=
  ⟨[], s, rest, rfl, fun _ ht => absurd ht List.not_mem_nil, hmark, hvalue⟩

/-- A hidden value is that of the nearest binding, and a read does not find it. -/
theorem Hides.reads {c : Chain} (h : c.Hides name v) :
    c.nearest? name = some v ∧ c.lookup? name = Table.get? c.root.vars name := by
  obtain ⟨inner, root⟩ := c
  obtain ⟨near, s, far, hsplit, hnear, hmark, hvalue⟩ := h
  dsimp only at hsplit
  subst hsplit
  induction near with
  | nil =>
    refine ⟨?_, lookup?_of_marked hmark⟩
    show ((s :: far) ++ [root]).findSome? _ = _
    rw [List.findSome?_append, hvalue]
    rfl
  | cons t near ih =>
    obtain ⟨hundecided, hrest⟩ := List.forall_mem_cons.mp hnear
    obtain ⟨hmark', hbound⟩ := Scope.decides_eq_false_iff.mp hundecided
    obtain ⟨hnearest, hlookup⟩ := ih hrest
    refine ⟨?_, (lookup?_of_passed hmark' hbound).trans hlookup⟩
    rw [List.cons_append, nearest?_cons, hbound]
    exact hnearest

/-- **A read finds the nearest binding** of a name of which no value is hidden. -/
theorem lookup?_of_not_hides {c : Chain} (h : ∀ v, ¬ c.Hides name v) :
    c.lookup? name = c.nearest? name := by
  obtain ⟨inner, root⟩ := c
  induction inner with
  | nil => exact (nearest?_root name).symm
  | cons s rest ih =>
    by_cases hmark : name ∈ s.globals
    · have hnone : (s :: rest).findSome? (fun t => Table.get? t.vars name) = none := by
        refine Option.eq_none_iff_forall_ne_some.mpr fun v hvalue => ?_
        exact h v (hides_of_marked hmark hvalue)
      rw [lookup?_of_marked hmark, ← nearest?_root]
      show _ = ((s :: rest) ++ [root]).findSome? _
      rw [List.findSome?_append, hnone]
      rfl
    · rw [nearest?_cons]
      cases hbound : Table.get? s.vars name with
      | some v => exact lookup?_of_bound hmark hbound
      | none =>
        have hundecided := Scope.decides_eq_false_iff.mpr ⟨hmark, hbound⟩
        have hrest := ih fun v hides => h v (hides.inward hundecided)
        exact (lookup?_of_passed hmark hbound).trans hrest

end Reading

end Chain

/-! ## Lambdas -/

/-- The number of a label stands for one lambda and no other. -/
def Machine.Distinguishes (m : Machine) (label : Nat) (r : Routine) : Prop :=
  ∀ e ∈ m.lambdas, lambdaId e.1 = lambdaId label → e = (label, r)

/-- The lambda that returns a variable. -/
def Ident.reader (x : Ident) : Routine :=
  ⟨[], [.returnWith (some (.var x))]⟩

/-- The lambda that returns a variable, called as soon as it is made. -/
def Expr.readAtOnce (label : Nat) (x : Ident) : Expr :=
  .methodCall (.lambda label x.reader) (.ofString "CALL") []

section Lambda

variable {cx : Context} {m : Machine} {label : Nat} {r : Routine}

/-- What a lambda is made of. -/
theorem makeLambda_eq (label : Nat) (r : Routine) (m : Machine) :
    ∃ fields, makeLambda label r m = .ok (.map fields) (m.learn label r) ∧
      (Value.map fields).tag? = some Value.lambdaTag ∧
      closureOf fields = m.chain.snapshot ∧
      Table.get? fields Value.lambdaIdKey = some (.int (lambdaId label)) := by
  refine ⟨_, rfl, ?_⟩
  have hdistinct : Value.typeKey ≠ Value.paramCountKey ∧ Value.typeKey ≠ Value.closureKey ∧
      Value.typeKey ≠ Value.lambdaIdKey ∧ Value.closureKey ≠ Value.lambdaIdKey := by
    decide
  obtain ⟨h₁, h₂, h₃, h₄⟩ := hdistinct
  unfold Value.tag? Value.textField? closureOf
  simp only [Table.ofList, Table.insertAll, List.foldl_cons, List.foldl_nil,
    Table.get?_insert_self, Table.get?_insert_of_ne _ _ h₁.symm,
    Table.get?_insert_of_ne _ _ h₂.symm, Table.get?_insert_of_ne _ _ h₃.symm,
    Table.get?_insert_of_ne _ _ h₄.symm, Machine.chain_learn, and_self]

/-- The number of a lambda that has just been made stands for it. -/
theorem lambda?_learn (h : m.Distinguishes label r) {fields : Table Value}
    (hid : Table.get? fields Value.lambdaIdKey = some (.int (lambdaId label))) :
    (m.learn label r).lambda? fields = some r := by
  have hfound : ∀ lambdas : List (Nat × Routine), (∃ e ∈ lambdas, e.1 = label) →
      (∀ e ∈ lambdas, lambdaId e.1 = lambdaId label → e = (label, r)) →
      lambdas.find? (fun e => lambdaId e.1 == lambdaId label) = some (label, r) := by
    rintro lambdas ⟨e, he, rfl⟩ honly
    have hsome : (lambdas.find? fun e' => lambdaId e'.1 == lambdaId e.1).isSome :=
      List.find?_isSome.mpr ⟨e, he, beq_self_eq_true _⟩
    obtain ⟨e', he'⟩ := Option.isSome_iff_exists.mp hsome
    have hsame : (lambdaId e'.1 == lambdaId e.1) = true :=
      List.find?_some (p := fun e' : Nat × Routine => lambdaId e'.1 == lambdaId e.1) he'
    rw [he', honly e' (List.mem_of_find?_eq_some he') (eq_of_beq hsame)]
  have hlearned : (m.learn label r).lambdas.find? (fun e => lambdaId e.1 == lambdaId label) =
      some (label, r) := by
    unfold Machine.learn
    split
    · next hknown =>
      obtain ⟨e, he, hlabel⟩ := List.any_eq_true.mp hknown
      exact hfound _ ⟨e, he, eq_of_beq hlabel⟩ h
    · exact List.find?_cons_of_pos (beq_self_eq_true _)
  unfold Machine.lambda?
  rw [hid]
  exact congrArg (Option.map Prod.snd) hlearned

/-- The frame in which the body of a lambda begins. -/
theorem lookup?_enterLambda {bindings : Table Value} (h : bindings.Ordered) (m : Machine)
    (name : String) :
    (m.enterLambda bindings).chain.lookup? name =
      (Table.get? bindings name).or (Table.get? m.chain.root.vars name) := by
  let frame : Scope := ({ strict := m.chain.root.strict } : Scope).bindAll bindings
  have hglobals : frame.globals = [] :=
    (Chain.bindAll_fresh bindings { strict := m.chain.root.strict }).2.1
  have hmark : name ∉ frame.globals := by
    rw [hglobals]
    exact List.not_mem_nil
  have hvars : Table.get? frame.vars name = Table.get? bindings name := by
    show Table.get? (Scope.bindAll _ bindings).vars name = _
    rw [Scope.vars_bindAll, Table.get?_insertAll h]
    exact Option.or_none
  show Chain.lookup? ⟨[frame], m.chain.root⟩ name = _
  cases hbound : Table.get? frame.vars name with
  | some v =>
    rw [Chain.lookup?_of_bound hmark hbound, ← hvars, hbound]
    rfl
  | none =>
    rw [Chain.lookup?_of_passed hmark hbound, ← hvars, hbound]
    rfl

/-- A copy of scopes in order is in order. -/
theorem Chain.Ordered.snapshot {c : Chain} (hc : c.Ordered) : c.snapshot.Ordered := by
  obtain ⟨inner, root⟩ := c
  induction inner with
  | nil => exact hc.root
  | cons s rest ih =>
    obtain ⟨-, hrest⟩ := List.forall_mem_cons.mp hc.inner
    exact (ih ⟨hrest, hc.root⟩).insertAll s.vars

/-- Where the body of a lambda begins, names have the values that it has captured. -/
theorem lookup?_captured (hc : m.chain.Ordered) (name : String) :
    (m.enterLambda m.chain.snapshot).chain.lookup? name = m.chain.nearest? name := by
  rw [lookup?_enterLambda hc.snapshot, Chain.get?_snapshot hc]
  -- What is not captured is not bound in the root either.
  unfold Chain.nearest? Chain.scopes
  rw [List.findSome?_append]
  cases m.chain.inner.findSome? fun s => Table.get? s.vars name <;>
    cases hroot : Table.get? m.chain.root.vars name <;> simp [hroot]

/-- `CALL` of a lambda calls it. -/
theorem Engine.callMember_call (g : Engine) {e : Expr} {fields : Table Value} {m₁ : Machine}
    (hreceiver : g.receiver cx e m = .ok (.map fields) m₁)
    (htag : (Value.map fields).tag? = some Value.lambdaTag) :
    g.callMember cx e (.ofString "CALL") [] m = g.callLambda cx fields [] m₁ := by
  have hcallable : (Value.map fields).isCallable = true := by
    unfold Value.isCallable
    rw [htag]
    rfl
  have hname : (Ident.ofString "CALL").name == "CALL" := by decide
  have hitems : g.items [] m₁ = .ok [] m₁ := rfl
  unfold callMember
  rw [Run.bind_of_ok hreceiver, Run.bind_of_ok hitems, hcallable, hname]
  show g.invoke cx (.map fields) [] m₁ = _
  unfold invoke
  dsimp only
  rw [if_pos htag]

/-- A call of a lambda that has just been made executes its body where the captured bindings are. -/
theorem Engine.callLambda_learned (g : Engine) {fields : Table Value} {v : Value}
    (hlabel : m.Distinguishes label r) (hdepth : m.depth < cx.config.maxDepth)
    (hid : Table.get? fields Value.lambdaIdKey = some (.int (lambdaId label)))
    (hbody : g.enter r [] [] ((m.learn label r).enterLambda (closureOf fields)) =
      .ok (.returned v) ((m.learn label r).enterLambda (closureOf fields))) :
    g.callLambda cx fields [] (m.learn label r) = .ok v (m.learn label r) := by
  rw [← m.depth_learn label r] at hdepth
  rw [callLambda_apply (Nat.le_of_lt hdepth) g fields [] (lambda?_learn hlabel hid),
    if_neg (Nat.ne_of_lt hdepth)]
  have hleft : (g.enter r [] []).andThen (m.learn label r).leaveLambda
      ((m.learn label r).enterLambda (closureOf fields)) =
        .ok (.returned v) (m.learn label r) := by
    unfold Run.andThen
    rw [hbody]
    rfl
  exact Run.bind_of_ok hleft

/-- **A lambda that is called as soon as it is made** finds what was captured. -/
theorem eval_readAtOnce {x : Ident} {v : Value} (n : Nat) (hc : m.chain.Ordered)
    (hlabel : m.Distinguishes label x.reader) (hdepth : m.depth < cx.config.maxDepth)
    (hv : m.chain.nearest? x.name = some v) :
    eval cx (n + 3) (.readAtOnce label x) m = .ok v (m.learn label x.reader) := by
  obtain ⟨fields, hmake, htag, hclosure, hid⟩ := makeLambda_eq label x.reader m
  let g := engine cx (n + 2)
  have hreceiver : g.receiver cx (.lambda label x.reader) m =
      .ok (.map fields) (m.learn label x.reader) := hmake
  -- The body runs in a frame that starts with the captured bindings.
  have hlookup : ((m.learn label x.reader).enterLambda (closureOf fields)).chain.lookup? x.name =
      some v := by
    rw [← m.chain_learn label x.reader] at hclosure hc hv
    rw [hclosure, lookup?_captured hc]
    exact hv
  have hread : eval cx (n + 1) (.var x) ((m.learn label x.reader).enterLambda (closureOf fields)) =
      .ok v ((m.learn label x.reader).enterLambda (closureOf fields)) := by
    show Run.lift (Chain.get _ x.name) _ = _
    rw [Chain.get_of_lookup? hlookup]
    rfl
  show g.callMember cx (.lambda label x.reader) (.ofString "CALL") [] m = _
  rw [g.callMember_call hreceiver htag]
  exact g.callLambda_learned hlabel hdepth hid (block_returning hread)

end Lambda

/-- **A lambda captures the nearest binding of each name.**  Let the tables of all scopes be
ordered, as they then stay in every run.  The copy that a lambda takes has the nearest binding of
each name.  It agrees with what a read of the name finds if and only if no GLOBAL mark hides a value
other than that of the root; where a mark does hide a value, that value is captured and the read goes
to the root.  The body of the lambda begins with the captured values.  So a lambda that is called as
soon as it is made yields what was captured, and this is what the code around it reads if no mark
hides another value. -/
theorem closure_captures_nearest (cx : Context) (m : Machine) (hm : m.chain.Ordered) :
    (∀ (fuel : Nat) (p : Program), Throughout (·.chain.Ordered) cx fuel
      (fun g => g.topLevel (m.adopt p).1.statements) ((m.adopt p).2.load (m.adopt p).1)) ∧
    (∀ name, Table.get? m.chain.snapshot name = m.chain.nearest? name) ∧
    (∀ name, Table.get? m.chain.snapshot name = m.chain.lookup? name ↔
      ∀ v, m.chain.Hides name v → Table.get? m.chain.root.vars name = some v) ∧
    (∀ name v, m.chain.Hides name v → Table.get? m.chain.snapshot name = some v ∧
      m.chain.lookup? name = Table.get? m.chain.root.vars name) ∧
    (∀ label r, ∃ fields, makeLambda label r m = .ok (.map fields) (m.learn label r) ∧
      closureOf fields = m.chain.snapshot) ∧
    (∀ name, (m.enterLambda m.chain.snapshot).chain.lookup? name =
      Table.get? m.chain.snapshot name) ∧
    (∀ (label fuel : Nat) (x : Ident) (v : Value), m.Distinguishes label x.reader →
      m.depth < cx.config.maxDepth → Table.get? m.chain.snapshot x.name = some v →
      eval cx (fuel + 3) (.readAtOnce label x) m = .ok v (m.learn label x.reader) ∧
      ((∀ w, m.chain.Hides x.name w → Table.get? m.chain.root.vars x.name = some w) →
        eval cx (fuel + 3) (.var x) m = .ok v m)) := by
  have hcopy := Chain.get?_snapshot hm
  have hagree : ∀ name, (∀ v, m.chain.Hides name v →
      Table.get? m.chain.root.vars name = some v) → m.chain.lookup? name = m.chain.nearest? name := by
    intro name hroot
    by_cases hhides : ∃ v, m.chain.Hides name v
    · obtain ⟨v, hides⟩ := hhides
      rw [hides.reads.1, hides.reads.2, hroot v hides]
    · exact Chain.lookup?_of_not_hides (not_exists.mp hhides)
  refine ⟨?_, hcopy, ?_, ?_, ?_, ?_, ?_⟩
  · intro fuel p
    have S := orderInvariant_sound cx
    have hlax : orderInvariant.rule.Lax := fun _ _ => rfl
    have hloaded : ((m.adopt p).2.load (m.adopt p).1).chain.Ordered :=
      (load_chain (m.adopt p).2 (m.adopt p).1).symm ▸ hm
    exact S.throughout (fun _ _ hgood => hgood) fuel ⟨.of_lax hlax, hloaded⟩
      fun _ _ G => G.topLevel S.lockstep _ (hlax.stmts _ _)
  · intro name
    rw [hcopy]
    constructor
    · intro hsame v hides
      rw [← hides.reads.2, ← hsame, hides.reads.1]
    · exact fun hroot => (hagree name hroot).symm
  · intro name v hides
    exact ⟨(hcopy name).trans hides.reads.1, hides.reads.2⟩
  · intro label r
    obtain ⟨fields, hmake, -, hclosure, -⟩ := makeLambda_eq label r m
    exact ⟨fields, hmake, hclosure⟩
  · intro name
    exact (lookup?_captured hm name).trans (hcopy name).symm
  · intro label fuel x v hlabel hdepth hv
    rw [hcopy] at hv
    refine ⟨eval_readAtOnce fuel hm hlabel hdepth hv, fun hroot => ?_⟩
    show Run.lift (m.chain.get x.name) m = _
    rw [Chain.get_of_lookup? ((hagree x.name hroot).trans hv)]
    rfl

/-- The scopes inside a procedure that is called where `A` is 5, and that makes `A` a local with the
value 1. -/
def shadowedA : Chain :=
  let root : Chain := Chain.bind {} "A" (.int 5)
  (root.push root.newFrame).bind "A" (.int 1)

/-- A lambda and the code around it agree on a local that shadows a variable of the root. -/
theorem closure_captures_nearest_shadowed :
    let m : Machine := { chain := shadowedA }
    let x := Ident.ofString "A"
    m.chain.Ordered ∧ m.Distinguishes 0 x.reader ∧
      eval {} 3 (.readAtOnce 0 x) m = .ok (.int 1) (m.learn 0 x.reader) ∧
      eval {} 3 (.var x) m = .ok (.int 1) m := by
  intro m x
  have hm : m.chain.Ordered :=
    ((Chain.Ordered.empty.bind "A" (.int 5)).push Table.Ordered.nil).bind "A" (.int 1)
  have hlabel : m.Distinguishes 0 x.reader := fun e he => absurd he List.not_mem_nil
  have hnone : ∀ w, m.chain.Hides x.name w → Table.get? m.chain.root.vars x.name = some w := by
    rintro w ⟨near, s, far, hsplit, -, hmark, -⟩
    have hs : s ∈ m.chain.inner := hsplit ▸ List.mem_append_right near List.mem_cons_self
    rw [List.mem_singleton.mp hs] at hmark
    cases hmark
  have captured := (closure_captures_nearest {} m hm).2.2.2.2.2.2 0 0 x (.int 1) hlabel
    (by decide) rfl
  exact ⟨hm, hlabel, captured.1, captured.2 hnone⟩

/-- After the procedure has marked `A` GLOBAL, code in it reads 5, but a lambda captures 1 and yields
it. -/
theorem closure_misses_global :
    let m : Machine := { chain := shadowedA.addGlobal "A" }
    let x := Ident.ofString "A"
    m.chain.lookup? "A" = some (.int 5) ∧ Table.get? m.chain.snapshot "A" = some (.int 1) ∧
      eval {} 3 (.var x) m = .ok (.int 5) m ∧
      eval {} 3 (.readAtOnce 0 x) m = .ok (.int 1) (m.learn 0 x.reader) :=
  ⟨rfl, rfl, rfl, rfl⟩

end BasicScript
