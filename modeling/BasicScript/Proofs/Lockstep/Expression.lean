import BasicScript.Proofs.Lockstep.Call

/-!
# Expressions in lockstep

One level of evaluation: if two engines run in lockstep, then so do the evaluators that are one
level above them.  There is one case for each kind of expression.
-/

namespace BasicScript.Lockstep

variable {L : Lockstep} {cx cx' : Context} {g g' : Engine} {l : Level}
  (S : L.Sound cx cx') (G : L.Engines g g')

namespace Sound

include S

/-- Reading a member. -/
theorem member {object : Value} (hobject : object.Keyed L.key) (name : String) :
    L.Yields .expr (Run.member cx object name) (Run.member cx' object name) := by
  refine Rel.look fun m m' hm => ?_
  rw [(S.alike hm).member? S.host]
  cases hv : m.member? cx object name with
  | some v => exact S.pure (Machine.Keyed.member? S.key_normal S.host_keyed hobject hv)
  | none => exact S.noted? (missingMemberNote? object name) (S.pure .nil)

/-- The value of a lambda holds what is seen where it is made. -/
theorem makeLambda (label : Nat) (r : Routine) (h : L.rule.routine .function r) :
    L.Yields .expr (makeLambda label r) (makeLambda label r) := by
  refine S.bind (S.learn label r h) fun _ _ => ?_
  have seen := S.withChain (l := .expr) (fun _ _ alike => alike.snapshot) fun _ hc => hc.snapshot
  exact S.bind seen fun _ hclosure => S.pure (Value.keyed_lambda S.key_normal hclosure _ _)

end Sound

namespace Engines

include S G

/-- Indices that are applied one after the other. -/
theorem indices {target : Value} (htarget : target.Keyed L.key) (es : List Expr)
    (h : L.rule.exprs es) : L.Yields .expr (g.indices target es) (g'.indices target es) := by
  induction es generalizing target with
  | nil => exact S.pure htarget
  | cons e rest ih =>
    rw [Rule.exprs, Bool.and_eq_true] at h
    exact S.bind (G.eval e h.1) fun i _ => ih (Value.keyed_itemAt htarget i) h.2

/-- The entries of a map literal, by induction on them. -/
theorem entries {fields : Table Value} (hfields : Table.Keyed L.key fields)
    (es : List (Expr × Expr)) (h : L.rule.pairs es) :
    L.Rel .expr (g.entries fields es) (g'.entries fields es) (Table.Keyed L.key) := by
  induction es generalizing fields with
  | nil => exact S.pure hfields
  | cons entry rest ih =>
    obtain ⟨k, e⟩ := entry
    simp only [Rule.pairs, Bool.and_eq_true] at h
    refine S.bind (G.eval k h.1.1) fun key _ => S.bind (G.eval e h.1.2) fun v hv => ?_
    exact ih (hfields.insert (S.key_normal key.toText) hv) h.2

/-- The parts of an interpolated text, by induction on them. -/
theorem parts (done : String) (es : List Expr) (h : L.rule.exprs es) :
    L.Keeps .expr (g.parts done es) (g'.parts done es) := by
  induction es generalizing done with
  | nil => exact S.skip _
  | cons e rest ih =>
    rw [Rule.exprs, Bool.and_eq_true] at h
    exact S.bind (G.eval e h.1) fun v _ => ih _ h.2

/-- A comprehension over the values of an array, by induction on them. -/
theorem comprehend (item : Expr) (x : Ident) (filter : Option Expr) {vs : List Value}
    (hvs : Value.AllKeyed L.key vs) (hitem : L.rule.expr item) (hfilter : L.rule.expr? filter) :
    L.Rel .item (g.comprehend item x filter vs) (g'.comprehend item x filter vs)
      (Value.AllKeyed L.key) := by
  induction vs with
  | nil => exact S.pure nofun
  | cons v rest ih =>
    obtain ⟨hv, hrest⟩ := List.forall_mem_cons.mp hvs
    -- What happens to an item once the filter has been asked.
    have chosen : ∀ wanted : Bool, L.Rel .item
        (if wanted then do
          let r ← g.eval item
          return r :: (← g.comprehend item x filter rest)
        else g.comprehend item x filter rest)
        (if wanted then do
          let r ← g'.eval item
          return r :: (← g'.comprehend item x filter rest)
        else g'.comprehend item x filter rest) (Value.AllKeyed L.key) := by
      intro wanted
      split
      · refine S.bind (S.ofExpr (G.eval item hitem)) fun r hr => ?_
        exact S.bind (ih hrest) fun rs hrs => S.pure (.cons hr hrs)
      · exact ih hrest
    refine S.bind (S.bindItem x.name v (S.key_name x) hv) fun _ _ => ?_
    cases filter with
    | none => exact chosen true
    | some cond =>
      have test := S.bind (G.eval cond hfilter) fun c _ => S.skip c.isTruthy
      exact S.bind (S.ofExpr test) fun wanted _ => chosen wanted

/-- The first arm of a choice that the subject equals, by induction on the arms. -/
theorem arms (subject : Value) (otherwise : Option Expr) (es : List (Expr × Expr))
    (h : L.rule.pairs es) (hotherwise : L.rule.expr? otherwise) :
    L.Yields .expr (g.arms subject otherwise es) (g'.arms subject otherwise es) := by
  induction es with
  | nil => exact G.eval? S otherwise hotherwise
  | cons arm rest ih =>
    obtain ⟨pattern, result⟩ := arm
    simp only [Rule.pairs, Bool.and_eq_true] at h
    refine S.bind (G.eval pattern h.1.1) fun p _ => ?_
    split
    · exact G.eval result h.1.2
    · exact ih h.2

/-- **One level of evaluation.** -/
theorem evalStep (e : Expr) (h : L.rule.expr e) :
    L.Yields .expr (evalStep cx g e) (evalStep cx' g' e) := by
  cases e with
  | nil => exact S.pure .nil
  | bool b => exact S.pure (.bool b)
  | int n => exact S.pure (.int n)
  | float x => exact S.pure (.float x)
  | str s => exact S.pure (.str s)
  | var name => exact S.readVar name.name
  | unary op e =>
    refine S.bind (G.eval e h) fun v _ => ?_
    exact S.lift (Value.unary_ordinary op v) (Value.unary_gives_keyed op v)
  | binary op a b =>
    rw [Rule.expr, Bool.and_eq_true] at h
    refine S.bind (G.eval a h.1) fun v _ => S.bind (G.eval b h.2) fun w _ => ?_
    exact S.lift (Value.binary_ordinary op v w) (Value.binary_gives_keyed op v w)
  | index e es =>
    rw [Rule.expr, Bool.and_eq_true] at h
    exact S.bind (G.eval e h.1) fun v hv => G.indices S hv es h.2
  | call callee args named =>
    rw [Rule.expr, Bool.and_eq_true] at h
    refine S.bind (G.items S args h.1) fun vs hvs => S.bind (G.named S named h.2) fun ns hns => ?_
    exact G.dispatch S hvs callee.name hns
  | member object name =>
    exact S.bind (G.receiver S object h) fun v hv => S.member hv name.name
  | methodCall object method args =>
    rw [Rule.expr, Bool.and_eq_true] at h
    exact G.callMember S object method args h.1 h.2
  | array es | tuple es => exact S.bind (G.items S es h) fun vs hvs => S.pure (.array hvs)
  | map es =>
    refine S.bind (G.entries S .nil es h) fun fields hfields => ?_
    exact S.pure (Value.keyed_map.mpr hfields)
  | lambda label r => exact S.makeLambda label r h
  | interpolated es => exact S.bind (G.parts S "" es h) fun s _ => S.pure (.str s)
  | range a b =>
    rw [Rule.expr, Bool.and_eq_true] at h
    refine S.bind (G.eval a h.1) fun v _ => S.bind (G.eval b h.2) fun w _ => ?_
    rw [S.maxElements]
    exact S.lift (Value.range_ordinary v w _) (Value.range_gives_keyed v w _)
  | comprehension item x source filter =>
    simp only [Rule.expr, Bool.and_eq_true] at h
    refine S.bind (G.eval source h.1.2) fun v hv => ?_
    have inside := G.comprehend S item x filter (Value.allKeyed_itemsOf hv) h.1.1 h.2
    exact S.bind (S.inBlock inside) fun vs hvs => S.pure (.array hvs)
  | choose subject arms otherwise =>
    simp only [Rule.expr, Bool.and_eq_true] at h
    exact S.bind (G.eval subject h.1.1) fun v _ => G.arms S v otherwise arms h.1.2 h.2
  | safeMember object name =>
    refine S.bind (G.eval object h) fun v hv => ?_
    split
    · exact S.pure .nil
    · refine Rel.look fun m m' hm => ?_
      rw [(S.alike hm).memberOf S.host]
      exact S.pure (Machine.Keyed.memberOf S.key_normal S.host_keyed hv name.name)
  | safeIndex object i =>
    rw [Rule.expr, Bool.and_eq_true] at h
    refine S.bind (G.eval object h.1) fun v hv => ?_
    split
    · exact S.pure .nil
    · exact S.bind (G.eval i h.2) fun w _ => S.pure (Value.keyed_itemAt hv w)
  | coalesce a b =>
    rw [Rule.expr, Bool.and_eq_true] at h
    refine S.bind (G.eval a h.1) fun v hv => ?_
    split
    · exact G.eval b h.2
    · exact S.pure hv
  | spread e => exact G.eval e h
  | typeOf e => exact S.bind (G.eval e h) fun v _ => S.pure (.str v.typeName)
  | properties e => exact S.bind (G.eval e h) fun v _ => S.pure (keyed_textArray _)
  | methods e =>
    refine S.bind (G.eval e h) fun v _ => ?_
    cases v.tag? with
    | some tag =>
      refine Rel.look fun m m' hm => ?_
      rw [(S.alike hm).methodsOf S.host]
      exact S.pure (keyed_textArray _)
    | none => exact S.pure (.array (List.forall_mem_nil _))
  | superCall method args => exact G.callSuper S method args h

end Engines

end BasicScript.Lockstep
