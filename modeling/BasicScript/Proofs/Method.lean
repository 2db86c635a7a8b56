import BasicScript.Proofs.Field
import BasicScript.Proofs.Keyed.Machine
import BasicScript.Proofs.Load

/-!
# Methods of objects

There are two answers to the question which methods an object has.  GETMETHODS goes along the
parents of the object's type and lists all methods on the way.  A call `object.method()` looks for a
procedure that is named for the object's own type and the method.  For a method that the type
declares itself the two agree, and the call executes its body.  A method that the type inherits is
listed, but it is not found: the call goes on as if the object had no such member, and calls whatever
the bare name of the method stands for.

* `TypeTable.mem_methodsOf_iff`: what GETMETHODS lists.
* `Machine.member?_fresh`: what a member of a new object stands for.
* `call_of_method` says what a call of a method does, for methods of both kinds.
* `inherited_method_not_found`: a method that is listed and cannot be called.
-/

namespace BasicScript

/-! ## Names -/

/-- The name that a type and a method give to a procedure, in upper case already. -/
theorem TypeDecl.methodName_eq (d : TypeDecl) (method : Ident) :
    d.methodName method = d.name.name ++ "_" ++ method.name := by
  unfold methodName
  rw [Text.upper_append, Text.upper_append, d.name.upper_name, method.upper_name]
  rfl

/-! ## What is loaded -/

/-- The type that a program declares under a name, the last one if there are several. -/
def Program.typeOf? (p : Program) (name : String) : Option TypeDecl :=
  (p.types.filterMap fun d => if d.name.name = name then some d else none).getLast?

/-- A machine has loaded a program and nothing besides. -/
structure Machine.HasLoaded (m : Machine) (p : Program) : Prop where
  subs : m.subs = (({} : Machine).load p).subs
  functions : m.functions = (({} : Machine).load p).functions
  types : m.types = (({} : Machine).load p).types

namespace Machine.HasLoaded

variable {m : Machine} {p : Program} (h : m.HasLoaded p) {name : String}
include h

/-- The types that a machine knows are those that the program declares. -/
theorem get?_types : Table.get? m.types name = (p.typeOf? name).map .ofDecl := by
  have hsought : Table.sought typeSlot? name = fun d : TypeDecl =>
      (if d.name.name = name then some d else none).map .ofDecl := by
    funext d
    by_cases hd : d.name.name = name <;> simp [Table.sought, typeSlot?, hd]
  rw [h.types, (load_tables _ p).2.2, Table.get?_enterAll, hsought, ← List.map_filterMap,
    List.getLast?_map]
  exact Option.or_none

/-- The SUB of a name is the last one that the program loads under it. -/
theorem get?_subs :
    Table.get? m.subs name = ((p.loadedAs name).filterMap Procedure.sub?).getLast? := by
  rw [h.subs, get?_subs_load]
  exact Option.or_none

/-- The FUNCTION of a name is the last one that the program loads under it. -/
theorem get?_functions :
    Table.get? m.functions name =
      ((p.loadedAs name).filterMap (Procedure.function? name)).getLast? := by
  rw [h.functions, get?_functions_load]
  exact Option.or_none

/-- The one procedure of a name is called. -/
theorem callProcedure? {q : Procedure} (hq : p.loadedAs name = [q]) (g : Engine) (cx : Context)
    (args : List Value) (named : List NamedValue) :
    g.callProcedure? cx m name args named = some (g.callLoaded cx name q args named) := by
  have hsub : Table.get? m.subs name = _ := h.get?_subs
  have hfunction : Table.get? m.functions name = _ := h.get?_functions
  rw [hq] at hsub hfunction
  cases q with
  | sub x r => exact g.callProcedure?_of_sub cx args named hsub
  | function x result r => exact g.callProcedure?_of_function cx args named hsub hfunction

/-- A procedure of a name is known. -/
theorem knows {q : Procedure} (hq : p.loadedAs name = [q]) (cx : Context) :
    m.knows cx name = true := by
  have hsub : Table.get? m.subs name = _ := h.get?_subs
  have hfunction : Table.get? m.functions name = _ := h.get?_functions
  rw [hq] at hsub hfunction
  unfold Machine.knows Table.contains
  cases q <;> rw [hsub, hfunction] <;> rfl

/-- There is no procedure of a name. -/
theorem not_knows (hnone : p.loadedAs name = []) :
    Table.get? m.subs name = none ∧ Table.get? m.functions name = none := by
  rw [h.get?_subs, h.get?_functions, hnone]
  exact ⟨rfl, rfl⟩

/-- The fields of all types have proper names. -/
theorem fields_named : m.types.Keyed fun k => ∃ x : Ident, x.name = k := by
  intro e he f hf
  rw [h.types, (load_tables _ p).2.2] at he
  rcases Table.mem_of_mem_enterAll he with he | ⟨d, -, hd⟩
  · cases he
  · cases hd
    obtain ⟨field, -, rfl⟩ := List.mem_map.mp hf
    exact ⟨field.1, rfl⟩

end Machine.HasLoaded

/-! ## What is listed -/

namespace TypeTable

/-- Names are added to a list unless they are there. -/
theorem mem_addMissing {known names : List String} {n : String} :
    n ∈ addMissing known names ↔ n ∈ known ∨ n ∈ names := by
  unfold addMissing
  induction names generalizing known with
  | nil => simp
  | cons a rest ih =>
    rw [List.foldl_cons, ih]
    split
    · next hknown =>
      have ha : a ∈ known := List.contains_iff_mem.mp hknown
      grind
    · grind

/-- GETMETHODS lists the methods of a type and of all types that it inherits from. -/
theorem mem_methodsOf_iff {ts : TypeTable} {name : String} {t : TypeInfo}
    (h : ts.find? name = some t) {method : String} :
    method ∈ ts.methodsOf name ↔ ∃ t' ∈ ts.lineage t, method ∈ t'.methods := by
  have hfold : ∀ (types : List TypeInfo) (known : List String),
      method ∈ types.foldl (fun known t => addMissing known t.methods) known ↔
        method ∈ known ∨ ∃ t' ∈ types, method ∈ t'.methods := by
    intro types
    induction types with
    | nil => simp
    | cons t' rest ih =>
      intro known
      rw [List.foldl_cons, ih, mem_addMissing, or_assoc]
      simp
  unfold methodsOf
  rw [h]
  simp [hfold]

/-! ## New objects -/

/-- The fields of a new object. -/
def freshFields (ts : TypeTable) (t : TypeInfo) : Table Value :=
  Table.insert ((ts.lineage t).foldr (fun t fields => initFields fields t) []) Value.typeKey
    (.str t.name)

/-- A new object of a type that is found has the fields of the type. -/
theorem instance?_eq {ts : TypeTable} {name : String} {t : TypeInfo} (h : ts.find? name = some t) :
    ts.instance? name = some (.map (ts.freshFields t)) := by
  unfold instance?
  rw [h]
  rfl

/-- A field of a new object is its tag, or it is declared by one of its types. -/
theorem mem_freshFields {ts : TypeTable} {t : TypeInfo} {e : String × Value}
    (h : e ∈ ts.freshFields t) :
    e = (Value.typeKey, .str t.name) ∨
      ∃ t' ∈ ts.lineage t, ∃ f ∈ t'.fields, e = (f.1, Value.initial f.2) := by
  rcases Table.mem_of_mem_insert h with rfl | h
  · exact .inl rfl
  right
  generalize ts.lineage t = types at h ⊢
  induction types with
  | nil => cases h
  | cons t' rest ih =>
    rcases Table.mem_of_mem_insertAll h with h | h
    · obtain ⟨t'', ht'', hf⟩ := ih h
      exact ⟨t'', List.mem_cons_of_mem t' ht'', hf⟩
    · obtain ⟨f, hf, rfl⟩ := List.mem_map.mp h
      exact ⟨t', List.mem_cons_self, f, hf, rfl⟩

/-- No field of a new object is a map. -/
theorem freshFields_ne_map {ts : TypeTable} {t : TypeInfo} {key : String} {v : Value}
    (h : Table.get? (ts.freshFields t) key = some v) (inner : Table Value) : v ≠ .map inner := by
  rcases mem_freshFields (Table.mem_of_get? h) with heq | ⟨t', -, f, -, heq⟩
  · cases heq
    exact nofun
  · cases heq
    unfold Value.initial
    split <;> exact nofun

end TypeTable

/-! ## Members of new objects -/

/-- A new object of a type that a program declares. -/
def Machine.newObject (m : Machine) (d : TypeDecl) : Value :=
  .map (m.types.freshFields (.ofDecl d))

/-- A new object is tagged with its type. -/
theorem Machine.tag?_newObject (m : Machine) (d : TypeDecl) :
    (m.newObject d).tag? = some d.name.name := by
  unfold newObject Value.tag? Value.textField? TypeTable.freshFields
  dsimp only
  rw [Table.get?_insert_self]
  rfl

section Object

variable {m : Machine} {p : Program} {d : TypeDecl} {method : Ident} (hm : m.HasLoaded p)
  (hd : p.typeOf? d.name.name = some d)
include hm hd

/-- A type that the program declares is found. -/
theorem Machine.HasLoaded.find?_type : m.types.find? d.name.name = some (.ofDecl d) := by
  unfold TypeTable.find?
  rw [d.name.upper_name, hm.get?_types, hd]
  rfl

variable (hfields : ∀ t ∈ m.types.lineage (.ofDecl d), ∀ f ∈ t.fields, f.1 ≠ method.name)
  (htag : method.name ≠ "_TYPE")
include hfields htag

/-- A name that is no field is not found among the fields of a new object. -/
theorem lookup?_freshFields :
    Value.lookup? (m.types.freshFields (.ofDecl d)) method.name = none := by
  have hlineage := hm.fields_named.lineageFrom (hm.fields_named.find? (hm.find?_type hd))
    (m.types.length + 1)
  have hfound : Value.findKey? (m.types.freshFields (.ofDecl d)) method.name = none := by
    unfold Value.findKey?
    dsimp only
    rw [method.normalizeKey_name]
    split
    · next hcontains =>
      obtain ⟨v, hv⟩ := Option.isSome_iff_exists.mp hcontains
      rcases TypeTable.mem_freshFields (Table.mem_of_get? hv) with heq | ⟨t, ht, f, hf, heq⟩
      · exact (method.name_ne (s := Value.typeKey) (by decide) (congrArg Prod.fst heq)).elim
      · exact (hfields t ht f hf (congrArg Prod.fst heq).symm).elim
    · refine List.find?_eq_none.mpr fun k hk halike => ?_
      obtain ⟨e, he, rfl⟩ := List.mem_map.mp hk
      rcases TypeTable.mem_freshFields he with heq | ⟨t, ht, f, hf, heq⟩
      · -- The tag is the only key that is not in upper case.
        have hupper : Text.eqCharsAsciiCase (Ident.ofString "_type").name.toList
            method.name.toList = true := by
          rw [heq, Text.eqCharsAsciiCase_iff] at halike
          rw [Text.eqCharsAsciiCase_iff, ← halike]
          show (Ident.ofString "_type").name.toList.map Char.toLower =
            Value.typeKey.toList.map Char.toLower
          decide
        exact htag (Ident.name_eq_of_eqAsciiCase hupper).symm
      · obtain ⟨x, hx⟩ := hlineage t ht f hf
        rw [heq, ← hx] at halike
        exact hfields t ht f hf (hx.symm.trans (Ident.name_eq_of_eqAsciiCase halike))
  unfold Value.lookup?
  rw [hfound]
  rfl

/-- **A member of a new object** that is no field stands for a procedure that is named for the type
of the object, if there is one, and otherwise for nothing. -/
theorem Machine.member?_fresh {cx : Context} (hhooks : cx.host.hooks.read = []) :
    m.member? cx (m.newObject d) method.name =
      if m.knows cx (d.methodName method) then
        some (.boundMethod (m.newObject d) method.name (d.methodName method))
      else none := by
  have htagged := m.tag?_newObject d
  unfold newObject at htagged ⊢
  generalize hobject : m.types.freshFields (.ofDecl d) = fields
  have hlookup := lookup?_freshFields hm hd hfields htag
  rw [hobject] at hlookup htagged
  -- A dotted name leads through a field, and none of the fields is a map.
  have hdotted : (if method.name.toList.contains '.' then
      (Value.map fields).getFields? (Value.segments method.name) else none) = none := by
    split
    · next hdot =>
      obtain ⟨a, b, rest, hsplit⟩ := Value.splitDots_of_mem (List.contains_iff_mem.mp hdot)
      unfold Value.segments
      rw [hsplit, List.map_cons, List.map_cons, Value.getFields?]
      refine Option.bind_eq_none_iff.mpr fun v hv => ?_
      obtain ⟨key, -, hv⟩ := Option.bind_eq_some_iff.mp hv
      rw [← hobject] at hv
      cases v with
      | map inner => exact (TypeTable.freshFields_ne_map hv inner rfl).elim
      | _ => rfl
    · rfl
  have hnamespace : namespaceMethod? cx (.map fields) fields method.name = none := by
    unfold namespaceMethod?
    rw [if_neg]
    rw [htagged, Option.some_inj]
    exact d.name.name_ne (by decide)
  unfold member? Hooks.resolve?
  rw [hhooks]
  show m.mapMember? cx fields method.name = _
  unfold mapMember?
  dsimp only
  rw [hlookup, hdotted, hnamespace, htagged]
  show m.typeMethod? cx (.map fields) d.name.name method.name = _
  unfold typeMethod?
  dsimp only
  rw [d.name.upper_name, method.upper_name, d.methodName_eq]

end Object

/-! ## Method objects -/

namespace Value

variable (receiver : Value) (method function : String)

/-- The fields of a method object can be told apart. -/
theorem get?_boundMethod :
    ∃ fields, boundMethod receiver method function = map fields ∧
      Table.get? fields typeKey = some (str methodTag) ∧
      Table.get? fields objectKey = some receiver ∧
      Table.get? fields methodKey = some (str method) ∧
      Table.get? fields functionKey = some (str function) := by
  refine ⟨_, rfl, ?_⟩
  have hdistinct : typeKey ≠ objectKey ∧ typeKey ≠ methodKey ∧ typeKey ≠ functionKey ∧
      objectKey ≠ methodKey ∧ objectKey ≠ functionKey ∧ methodKey ≠ functionKey := by
    decide
  obtain ⟨h₁, h₂, h₃, h₄, h₅, h₆⟩ := hdistinct
  simp only [Table.ofList, Table.insertAll, List.foldl_cons, List.foldl_nil]
  simp only [Table.get?_insert_self, Table.get?_insert_of_ne _ _ h₁.symm,
    Table.get?_insert_of_ne _ _ h₂.symm, Table.get?_insert_of_ne _ _ h₃.symm,
    Table.get?_insert_of_ne _ _ h₄.symm, Table.get?_insert_of_ne _ _ h₅.symm,
    Table.get?_insert_of_ne _ _ h₆.symm, and_self]

/-- A method object can be called. -/
theorem isCallable_boundMethod : (boundMethod receiver method function).isCallable = true := by
  obtain ⟨fields, hfields, htype, -⟩ := get?_boundMethod receiver method function
  unfold isCallable tag? textField?
  rw [hfields]
  dsimp only
  rw [htype]
  rfl

end Value

/-- A call of a method object stands for its object if the name of the method says so. -/
theorem chainTarget?_boundMethod (receiver : Value) (method function : String) :
    chainTarget? receiver (.boundMethod receiver method function) method =
      if isChainable method then some receiver else none := by
  obtain ⟨fields, hfields, -, -, hmethod, -⟩ := Value.get?_boundMethod receiver method function
  unfold chainTarget?
  split
  · rfl
  · next hchainable =>
    rw [hfields]
    unfold Value.textField?
    dsimp only
    rw [hmethod]
    simp [hchainable]

namespace Engine

variable (g : Engine) (cx : Context)

/-- A method object calls its function with its object. -/
theorem invoke_boundMethod (receiver : Value) (method function : String) :
    g.invoke cx (.boundMethod receiver method function) [] =
      g.callName cx (Text.upper function) [receiver] [] := by
  obtain ⟨fields, hfields, htype, hobject, -, hfunction⟩ :=
    Value.get?_boundMethod receiver method function
  have htag : (Value.map fields).tag? = some Value.methodTag := by
    unfold Value.tag? Value.textField?
    dsimp only
    rw [htype]
  rw [hfields]
  unfold invoke
  dsimp only
  rw [htag, if_neg (by decide), if_pos rfl]
  unfold callMethod Value.textField?
  rw [hfunction, hobject]
  rfl

/-! ## Bodies of methods -/

/-- Executes a body in a new frame where `THIS` is an object and the parameters have their
defaults. -/
def bodyOn (r : Routine) (object : Value) : Run Flow :=
  Run.called cx.config.maxDepth (Run.within Chain.newFrame do
    Run.modifyChain (·.bind "THIS" object)
    g.bindDefaults (r.params.map (·, none))
    g.block r.body)

/-- Executes a method of an object that is loaded under a name. -/
def callOn (name : String) (q : Procedure) (object : Value) : Run Value :=
  match q with
  | .sub _ r => do
    let flow ← g.bodyOn cx r object
    flow.endSub
  | .function _ result r => do
    let flow ← g.bodyOn cx r object
    let v ← flow.result
    if cx.config.debug then
      match resultNote? ⟨name, result.map (·.name), r⟩ v with
      | some text => Run.note text
      | none => pure ()
    return v

/-- Nothing is bound where no arguments are placed. -/
theorem bindPlaced_none (c : Chain) (params : List Binder) :
    bindPlaced c (params.map (·, none)) = c := by
  induction params with
  | nil => rfl
  | cons b rest ih => exact ih

/-- Parameters without arguments. -/
theorem zip_replicate_none (params : List Binder) :
    params.zip (List.replicate params.length (none : Option Value)) = params.map (·, none) := by
  induction params with
  | nil => rfl
  | cons b rest ih =>
    rw [List.length_cons, List.replicate_succ, List.zip_cons_cons, ih]
    rfl

/-- The object is the first argument of a method. -/
theorem callRoutine_method (r : Routine) (object : Value) :
    g.callRoutine cx ⟨⟨Ident.ofString "THIS", none⟩ :: r.params, r.body⟩ [object] [] =
      g.bodyOn cx r object := by
  have hplaced : placeArgs (⟨Ident.ofString "THIS", none⟩ :: r.params) [object] [] =
      some object :: List.replicate r.params.length none := by
    simp [placeArgs]
  unfold callRoutine enter bindParams
  dsimp only
  rw [hplaced, List.zip_cons_cons, zip_replicate_none]
  unfold bodyOn
  have hbind : (bindPlaced · ((⟨Ident.ofString "THIS", none⟩, some object) ::
      r.params.map (·, none))) = fun c : Chain => c.bind "THIS" object := by
    funext c
    exact bindPlaced_none _ _
  rw [hbind]
  rfl

/-- A method that is called with its object is executed on it. -/
theorem callLoaded_asMethod (name : String) (q : Procedure) (object : Value) :
    g.callLoaded cx name (Machine.asMethod q) [object] [] = g.callOn cx name q object := by
  cases q with
  | sub x r =>
    show (do let flow ← g.callRoutine cx _ [object] []; flow.endSub : Run Value) = _
    rw [callRoutine_method]
    rfl
  | function x result r =>
    show (do let flow ← g.callRoutine cx _ [object] []; _ : Run Value) = _
    rw [callRoutine_method]
    rfl

end Engine

/-! ## Calls of methods -/

/-- A new object is neither a lambda nor a method object. -/
theorem Machine.isCallable_newObject (m : Machine) (d : TypeDecl) :
    (m.newObject d).isCallable = false := by
  have hlambda : d.name.name ≠ Value.lambdaTag := d.name.name_ne (by decide)
  have hmethod : d.name.name ≠ Value.methodTag := d.name.name_ne (by decide)
  unfold Value.isCallable
  rw [m.tag?_newObject d]
  simp [hlambda, hmethod]

/-- The answer of a method.  If there is none it is the object, for methods whose name says that they
change it. -/
def Engine.chained (object : Value) (method : Ident) (x : Run Value) : Run Value := do
  let v ← x
  return orTarget (if isChainable method.name then some object else none) v

section Call

variable {cx : Context} {m : Machine} {p : Program} {d : TypeDecl} {method : Ident} (n : Nat)
  (hm : m.HasLoaded p) (hd : p.typeOf? d.name.name = some d) (hnew : p.loadedAs d.name.name = [])
include hm hd hnew

/-- A call of the name of a type makes a new object. -/
theorem eval_newObject : eval cx (n + 1) (.call d.name [] []) m = .ok (m.newObject d) m := by
  obtain ⟨hsub, hfunction⟩ := hm.not_knows hnew
  have hinstance : m.instance? cx d.name.name = some (m.newObject d) := by
    unfold Machine.instance?
    rw [TypeTable.instance?_eq (hm.find?_type hd)]
    rfl
  have hnone := (engine cx n).callProcedure?_of_none cx [] [] hsub hfunction
  exact (engine cx n).dispatch_of_type cx [] [] hnone hinstance

/-- What a call of a member of a new object does, by what the member stands for. -/
theorem callMember_newObject :
    eval cx (n + 2) (.methodCall (.call d.name [] []) method []) m =
      (let found := m.memberOf cx (m.newObject d) method.name
      if found.isCallable then do
        return Engine.orTarget (chainTarget? (m.newObject d) found method.name)
          (← (engine cx (n + 1)).invoke cx found [])
      else if found.isNil then
        Engine.chained (m.newObject d) method ((engine cx (n + 1)).dispatch cx method.name [] [])
      else return found : Run Value) m := by
  have hreceiver : (engine cx (n + 1)).receiver cx (.call d.name [] []) m =
      .ok (m.newObject d) m := eval_newObject n hm hd hnew
  have hitems : (engine cx (n + 1)).items [] m = .ok [] m := rfl
  show (engine cx (n + 1)).callMember cx (.call d.name [] []) method [] m = _
  unfold Engine.callMember
  rw [Run.bind_of_ok hreceiver, Run.bind_of_ok hitems, m.isCallable_newObject d, Bool.false_and,
    if_neg Bool.false_ne_true, Run.get_bind]
  dsimp only
  split
  · rfl
  · cases (m.memberOf cx (m.newObject d) method.name).isNil <;> rfl

/-- A member that is a method object is called with its object. -/
theorem callMember_boundMethod {q : Procedure}
    (hmember : m.member? cx (m.newObject d) method.name =
      some (.boundMethod (m.newObject d) method.name (d.methodName method)))
    (hq : p.loadedAs (d.methodName method) = [Machine.asMethod q]) :
    eval cx (n + 2) (.methodCall (.call d.name [] []) method []) m =
      Engine.chained (m.newObject d) method
        ((engine cx (n + 1)).callOn cx (d.methodName method) q (m.newObject d)) m := by
  have hupper : Text.upper (d.methodName method) = d.methodName method := Text.upper_upper _
  have hcall : (engine cx (n + 1)).callName cx (d.methodName method) [m.newObject d] [] m =
      (engine cx (n + 1)).callOn cx (d.methodName method) q (m.newObject d) m := by
    rw [← Engine.callLoaded_asMethod]
    exact Engine.callName_of_procedure _ cx _ _ (hm.callProcedure? hq _ cx _ _)
  rw [callMember_newObject n hm hd hnew]
  unfold Machine.memberOf
  rw [hmember]
  dsimp only [Option.getD_some]
  rw [if_pos (Value.isCallable_boundMethod _ _ _), chainTarget?_boundMethod,
    Engine.invoke_boundMethod, hupper]
  exact Run.bind_congr hcall

/-- A member that stands for nothing is called by its bare name. -/
theorem callMember_none (hmember : m.member? cx (m.newObject d) method.name = none) :
    eval cx (n + 2) (.methodCall (.call d.name [] []) method []) m =
      Engine.chained (m.newObject d) method
        ((engine cx (n + 1)).dispatch cx method.name [] []) m := by
  rw [callMember_newObject n hm hd hnew]
  unfold Machine.memberOf
  rw [hmember]
  rfl

end Call

/-- A call of a method that the type of a new object declares. -/
theorem eval_methodCall {cx : Context} {m : Machine} {p : Program} {d : TypeDecl} {method : Ident}
    {q : Procedure} (hhooks : cx.host.hooks.read = []) (hm : m.HasLoaded p)
    (hd : p.typeOf? d.name.name = some d) (hnew : p.loadedAs d.name.name = [])
    (hfields : ∀ t ∈ m.types.lineage (.ofDecl d), ∀ f ∈ t.fields, f.1 ≠ method.name)
    (htag : method.name ≠ "_TYPE")
    (hq : p.loadedAs (d.methodName method) = [Machine.asMethod q]) (n : Nat) :
    eval cx (n + 2) (.methodCall (.call d.name [] []) method []) m =
      Engine.chained (m.newObject d) method
        ((engine cx (n + 1)).callOn cx (d.methodName method) q (m.newObject d)) m := by
  have hmember := Machine.member?_fresh hm hd hfields htag hhooks
  rw [if_pos (hm.knows hq cx)] at hmember
  exact callMember_boundMethod n hm hd hnew hmember hq

/-- A name that stands for nothing cannot be called. -/
theorem Engine.dispatch_of_unknown (g : Engine) {cx : Context} {m : Machine} {method : Ident}
    (hsub : Table.get? m.subs method.name = none)
    (hfunction : Table.get? m.functions method.name = none)
    (htype : m.findType? cx method.name = none) (hvar : m.chain.lookup? method.name = none)
    (hnative : cx.host.natives.has method.name = false) :
    g.dispatch cx method.name [] [] m = .error (.failed (.unknownFunction method.name)) m := by
  have hinstance : m.instance? cx method.name = none := by
    obtain ⟨hown, hhost⟩ := Option.or_eq_none_iff.mp htype
    unfold Machine.instance? TypeTable.instance?
    rw [hown, hhost]
    rfl
  have hcall : cx.host.natives.call method.name [] =
      { result := .error (.unknownFunction method.name) } := by
    have hfind : cx.host.natives.find? method.name = none := by
      simpa [Natives.has] using hnative
    unfold Natives.call
    rw [hfind, method.upper_name]
  have hnone := g.callProcedure?_of_none cx [] [] hsub hfunction
  rw [g.dispatch_of_native cx [] [] hnone hinstance (by rw [hvar]; rfl), hcall]
  rfl

/-- **What a call of a method does.**  A program has been loaded, on a host that does not answer
reads itself, and it declares a type whose name stands for nothing else.  The method is none of the
fields of an object of the type, and no native has the name that the type and the method give to a
procedure.  Then

* GETMETHODS lists the method for an object of the type if and only if the type declares it or one
  that it inherits from does;
* if the type declares it, and nothing else is loaded under the name of the procedure, a call on a
  new object executes the declared body with `THIS` bound to the object;
* if nothing is loaded under the name of the procedure, be the method inherited or not, a call on a
  new object calls whatever the bare name of the method stands for, and fails if it stands for
  nothing. -/
theorem call_of_method (cx : Context) (m : Machine) (p : Program) (d : TypeDecl) (method : Ident)
    (hhooks : cx.host.hooks.read = []) (hm : m.HasLoaded p)
    (hd : p.typeOf? d.name.name = some d) (hnew : p.loadedAs d.name.name = [])
    (hfields : ∀ t ∈ m.types.lineage (.ofDecl d), ∀ f ∈ t.fields, f.1 ≠ method.name)
    (htag : method.name ≠ "_TYPE")
    (hnative : cx.host.natives.has (d.methodName method) = false) :
    (method.name ∈ m.methodsOf cx d.name.name ↔
      ∃ t ∈ m.types.lineage (.ofDecl d), method.name ∈ t.methods) ∧
    (∀ q ∈ d.methods, q.name = method →
      p.loadedAs (d.methodName method) = [Machine.asMethod q] →
      ∀ n, eval cx (n + 2) (.methodCall (.call d.name [] []) method []) m =
        Engine.chained (m.newObject d) method
          ((engine cx (n + 1)).callOn cx (d.methodName method) q (m.newObject d)) m) ∧
    (p.loadedAs (d.methodName method) = [] →
      (∀ n, eval cx (n + 2) (.methodCall (.call d.name [] []) method []) m =
        Engine.chained (m.newObject d) method
          ((engine cx (n + 1)).dispatch cx method.name [] []) m) ∧
      (p.loadedAs method.name = [] → m.findType? cx method.name = none →
        m.chain.lookup? method.name = none → cx.host.natives.has method.name = false →
        ∀ n, eval cx (n + 2) (.methodCall (.call d.name [] []) method []) m =
          .error (.failed (.unknownFunction method.name)) m)) := by
  refine ⟨?_, fun q _ _ hq => eval_methodCall hhooks hm hd hnew hfields htag hq, fun hnone => ?_⟩
  · have hfind := hm.find?_type hd
    unfold Machine.methodsOf TypeTable.has
    rw [if_pos (Option.isSome_iff_exists.mpr ⟨_, hfind⟩)]
    exact TypeTable.mem_methodsOf_iff hfind
  · have hmember := Machine.member?_fresh hm hd hfields htag hhooks
    obtain ⟨hsub, hfunction⟩ := hm.not_knows hnone
    have hknows : m.knows cx (d.methodName method) = false := by
      unfold Machine.knows Table.contains
      rw [hsub, hfunction, hnative]
      rfl
    rw [hknows, if_neg Bool.false_ne_true] at hmember
    have hcall := fun n => callMember_none n hm hd hnew hmember
    refine ⟨hcall, fun hbare htype hvar hnative n => ?_⟩
    obtain ⟨hsub, hfunction⟩ := hm.not_knows hbare
    rw [hcall n]
    exact Run.bind_of_error (Engine.dispatch_of_unknown _ hsub hfunction htype hvar hnative)

/-- The machine that has loaded a program into a new one has loaded the program with labels, and
nothing besides. -/
theorem Machine.hasLoaded_start (config : Config) (p : Program) :
    ((Machine.start config).loadProgram p).HasLoaded (p.relabel 0).1 := by
  have hloaded := load_tables ((Machine.start config).adopt p).2 (p.relabel 0).1
  have hempty := load_tables {} (p.relabel 0).1
  exact ⟨hloaded.1.trans hempty.1.symm, hloaded.2.1.trans hempty.2.1.symm,
    hloaded.2.2.trans hempty.2.2.symm⟩

/-- A method that returns seven. -/
def sevenMethod : Procedure :=
  .function (.ofString "m") none ⟨[], [.returnWith (some (.int 7))]⟩

/-- A type with this method. -/
def sevenParent : TypeDecl :=
  ⟨.ofString "p", none, [], [sevenMethod]⟩

/-- A type that inherits it. -/
def sevenChild : TypeDecl :=
  ⟨.ofString "t", some (.ofString "p"), [], []⟩

/-- The two types. -/
def sevenTypes : Program :=
  ⟨[.typeBlock sevenParent, .typeBlock sevenChild]⟩

/-- A call on an object of the type that declares the method executes its body. -/
theorem call_of_method_sevenParent :
    let m := (Machine.start {}).loadProgram sevenTypes
    m.HasLoaded sevenTypes ∧ sevenTypes.typeOf? "P" = some sevenParent ∧
      sevenTypes.loadedAs "P" = [] ∧ sevenTypes.loadedAs "P_M" = [Machine.asMethod sevenMethod] ∧
      eval {} 9 (.methodCall (.call (.ofString "p") [] []) (.ofString "m") []) m =
        Engine.chained (m.newObject sevenParent) (.ofString "m")
          ((engine {} 8).callOn {} "P_M" sevenMethod (m.newObject sevenParent)) m := by
  intro m
  have hm : m.HasLoaded sevenTypes := Machine.hasLoaded_start {} sevenTypes
  have hd : sevenTypes.typeOf? "P" = some sevenParent := rfl
  have hnew : sevenTypes.loadedAs "P" = [] := rfl
  have hq : sevenTypes.loadedAs "P_M" = [Machine.asMethod sevenMethod] := rfl
  have hcall := call_of_method {} m sevenTypes sevenParent (.ofString "m") rfl hm hd hnew
    (by decide) (by decide) rfl
  exact ⟨hm, hd, hnew, hq, hcall.2.1 sevenMethod List.mem_cons_self rfl hq 7⟩

/-- GETMETHODS lists an inherited method, and yet it cannot be called: what a call should execute
returns seven, and the call fails. -/
theorem inherited_method_not_found :
    let m := (Machine.start {}).loadProgram sevenTypes
    let object : Expr := .call (.ofString "t") [] []
    (Run.verdict (eval {} 9 (.methods object)) m).1 = .done (.array [.str "M"]) ∧
      (Run.verdict ((engine {} 8).callOn {} "P_M" sevenMethod (m.newObject sevenChild)) m).1 =
        .done (.int 7) ∧
      (Run.verdict (eval {} 9 (.methodCall object (.ofString "m") [])) m).1 =
        .failed (.unknownFunction "M") :=
  ⟨rfl, rfl, rfl⟩

end BasicScript
