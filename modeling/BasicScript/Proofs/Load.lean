import BasicScript.Interpreter
import Mathlib.Data.List.Forall2

/-!
# What a program loads

The declarations at the top level of a program go into three tables: SUBs, FUNCTIONs and types.  A
TYPE block also loads its methods, as procedures named for the type and the method.  This file says
what is in the tables afterwards: under each name the last thing that the program has declared for
that table, or else what was there before.

* `Program.procedures` lists the procedures that a program loads, each with its name, and
  `Program.loadedAs` those of one name.
* `Machine.load_tables` are the three tables after a program has been loaded.
* `Machine.get?_subs_load` and `Machine.get?_functions_load` read the two tables of procedures.
* `Program.loadedAs_relabel`: giving out labels changes nothing but labels.
-/

namespace BasicScript

variable {α β γ : Type}

/-! ## Entering one thing after the other -/

/-- The table after all entries of a list that belong in it have been made. -/
def Table.enterAll (slot? : γ → Option (String × α)) (t : Table α) (xs : List γ) : Table α :=
  xs.foldl (fun t x => (slot? x).elim t fun e => Table.insert t e.1 e.2) t

/-- What an entry says about a name. -/
def Table.sought (slot? : γ → Option (String × α)) (name : String) (x : γ) : Option α :=
  (slot? x).bind fun e => if e.1 = name then some e.2 else none

/-- **The last entry of a name counts.** -/
theorem Table.get?_enterAll (slot? : γ → Option (String × α)) (t : Table α) (xs : List γ)
    (name : String) :
    Table.get? (t.enterAll slot? xs) name =
      ((xs.filterMap (sought slot? name)).getLast?).or (Table.get? t name) := by
  induction xs generalizing t with
  | nil => rfl
  | cons x rest ih =>
    -- The first entry is as if the table had had it before.
    have hfirst : Table.get? ((slot? x).elim t fun e => Table.insert t e.1 e.2) name =
        (sought slot? name x).or (Table.get? t name) := by
      unfold sought
      cases slot? x with
      | none => rfl
      | some e =>
        by_cases he : e.1 = name
        · subst he
          simp
        · simp [he, get?_insert_of_ne]
    show Table.get? (Table.enterAll slot? _ rest) name = _
    rw [ih, hfirst, List.filterMap_cons]
    cases sought slot? name x with
    | none => rfl
    | some v =>
      cases h : (rest.filterMap (sought slot? name)).getLast? <;> simp [List.getLast?_cons, h]

/-- Entries are made one after the other. -/
theorem Table.enterAll_append (slot? : γ → Option (String × α)) (t : Table α) (xs ys : List γ) :
    t.enterAll slot? (xs ++ ys) = (t.enterAll slot? xs).enterAll slot? ys :=
  List.foldl_append

/-- Nothing else is in the table. -/
theorem Table.mem_of_mem_enterAll {slot? : γ → Option (String × α)} {t : Table α}
    {xs : List γ} {e : String × α} (h : e ∈ t.enterAll slot? xs) :
    e ∈ t ∨ ∃ x ∈ xs, slot? x = some e := by
  induction xs generalizing t with
  | nil => exact .inl h
  | cons x rest ih =>
    have hrest := ih (t := (slot? x).elim t fun e => Table.insert t e.1 e.2) h
    rcases hrest with hmem | ⟨y, hy, he⟩
    · cases hx : slot? x with
      | none =>
        rw [hx] at hmem
        exact .inl hmem
      | some e' =>
        rw [hx] at hmem
        rcases Table.mem_of_mem_insert hmem with rfl | hmem
        · exact .inr ⟨x, List.mem_cons_self, hx⟩
        · exact .inl hmem
    · exact .inr ⟨y, List.mem_cons_of_mem x hy, he⟩

/-! ## The three tables -/

/-- The routine of a SUB. -/
def Procedure.sub? : Procedure → Option Routine
  | .sub _ r => some r
  | .function .. => none

/-- A FUNCTION as it is loaded under a name. -/
def Procedure.function? (loadName : String) : Procedure → Option FunctionDecl
  | .sub .. => none
  | .function _ result r => some ⟨loadName, result.map (·.name), r⟩

/-- The name under which a method of a type is loaded. -/
def TypeDecl.methodName (d : TypeDecl) (method : Ident) : String :=
  Text.upper (d.name.name ++ "_" ++ method.name)

/-- The procedures that a statement loads, each with its name. -/
def Stmt.procedures : Stmt → List (String × Procedure)
  | .procedure q => [(q.name.name, q)]
  | .typeBlock d => d.methods.map fun q => (d.methodName q.name, Machine.asMethod q)
  | _ => []

/-- The type that a statement declares. -/
def Stmt.type? : Stmt → Option TypeDecl
  | .typeBlock d => some d
  | _ => none

/-- The procedures that a program loads, each with its name. -/
def Program.procedures (p : Program) : List (String × Procedure) :=
  p.statements.flatMap Stmt.procedures

/-- The procedures that a program loads under a name. -/
def Program.loadedAs (p : Program) (name : String) : List Procedure :=
  p.procedures.filterMap fun e => if e.1 = name then some e.2 else none

/-- The types that a program declares. -/
def Program.types (p : Program) : List TypeDecl :=
  p.statements.filterMap Stmt.type?

/-- The entry of a procedure in the table of SUBs. -/
def subSlot? (e : String × Procedure) : Option (String × Routine) :=
  e.2.sub?.map (e.1, ·)

/-- The entry of a procedure in the table of FUNCTIONs. -/
def functionSlot? (e : String × Procedure) : Option (String × FunctionDecl) :=
  (e.2.function? e.1).map (e.1, ·)

/-- The entry of a type in the table of types. -/
def typeSlot? (d : TypeDecl) : Option (String × TypeInfo) :=
  some (d.name.name, .ofDecl d)

namespace Machine

/-- Loads procedures one after the other. -/
def loadAll (m : Machine) (qs : List (String × Procedure)) : Machine :=
  qs.foldl (fun m e => m.loadProcedure e.1 e.2) m

/-- Loading procedures makes entries in the tables of SUBs and of FUNCTIONs. -/
theorem loadAll_tables (m : Machine) (qs : List (String × Procedure)) :
    (m.loadAll qs).subs = m.subs.enterAll subSlot? qs ∧
      (m.loadAll qs).functions = m.functions.enterAll functionSlot? qs ∧
      (m.loadAll qs).types = m.types := by
  induction qs generalizing m with
  | nil => exact ⟨rfl, rfl, rfl⟩
  | cons e rest ih =>
    obtain ⟨name, q⟩ := e
    cases q <;> exact ih _

/-- A TYPE loads its methods after it has been registered. -/
theorem loadType_eq (m : Machine) (d : TypeDecl) :
    m.loadType d = ({ m with types := m.types.register (.ofDecl d) } : Machine).loadAll
      (Stmt.procedures (.typeBlock d)) := by
  unfold loadType loadAll Stmt.procedures
  rw [List.foldl_map]
  rfl

/-- A statement makes the entries of its procedures and its type. -/
theorem loadStmt_tables (m : Machine) (s : Stmt) :
    (m.loadStmt s).subs = m.subs.enterAll subSlot? s.procedures ∧
      (m.loadStmt s).functions = m.functions.enterAll functionSlot? s.procedures ∧
      (m.loadStmt s).types = m.types.enterAll typeSlot? s.type?.toList := by
  cases s with
  | procedure q => cases q <;> exact ⟨rfl, rfl, rfl⟩
  | typeBlock d =>
    show (m.loadType d).subs = _ ∧ (m.loadType d).functions = _ ∧ (m.loadType d).types = _
    rw [loadType_eq]
    exact loadAll_tables _ _
  | _ => exact ⟨rfl, rfl, rfl⟩

/-- **The tables after a program has been loaded.** -/
theorem load_tables (m : Machine) (p : Program) :
    (m.load p).subs = m.subs.enterAll subSlot? p.procedures ∧
      (m.load p).functions = m.functions.enterAll functionSlot? p.procedures ∧
      (m.load p).types = m.types.enterAll typeSlot? p.types := by
  obtain ⟨statements⟩ := p
  unfold load Program.procedures Program.types
  dsimp only
  induction statements generalizing m with
  | nil => exact ⟨rfl, rfl, rfl⟩
  | cons s rest ih =>
    obtain ⟨hsubs, hfunctions, htypes⟩ := m.loadStmt_tables s
    obtain ⟨ihsubs, ihfunctions, ihtypes⟩ := ih (m.loadStmt s)
    rw [List.foldl_cons, List.flatMap_cons, Table.enterAll_append, Table.enterAll_append,
      ihsubs, ihfunctions, ihtypes, hsubs, hfunctions, htypes]
    refine ⟨rfl, rfl, ?_⟩
    rw [← Table.enterAll_append]
    cases h : s.type? <;> simp [h]

/-- The SUB of a name is the last one that the program has loaded, or else the one before. -/
theorem get?_subs_load (m : Machine) (p : Program) (name : String) :
    Table.get? (m.load p).subs name =
      (((p.loadedAs name).filterMap Procedure.sub?).getLast?).or (Table.get? m.subs name) := by
  have hsought : Table.sought subSlot? name = fun e =>
      (if e.1 = name then some e.2 else none).bind Procedure.sub? := by
    funext e
    obtain ⟨name', _ | _⟩ := e <;> by_cases h : name' = name <;>
      simp [Table.sought, subSlot?, Procedure.sub?, h]
  rw [(m.load_tables p).1, Table.get?_enterAll, hsought]
  unfold Program.loadedAs
  rw [List.filterMap_filterMap]

/-- The FUNCTION of a name is the last one that the program has loaded, or else the one before. -/
theorem get?_functions_load (m : Machine) (p : Program) (name : String) :
    Table.get? (m.load p).functions name =
      (((p.loadedAs name).filterMap (Procedure.function? name)).getLast?).or
        (Table.get? m.functions name) := by
  have hsought : Table.sought functionSlot? name = fun e =>
      (if e.1 = name then some e.2 else none).bind (Procedure.function? name) := by
    funext e
    obtain ⟨name', _ | _⟩ := e <;> by_cases h : name' = name <;>
      simp [Table.sought, functionSlot?, Procedure.function?, h]
  rw [(m.load_tables p).2.1, Table.get?_enterAll, hsought]
  unfold Program.loadedAs
  rw [List.filterMap_filterMap]

end Machine

/-! ## Labels -/

/-- A procedure under a name, and the same procedure with labels. -/
def LabelledEntry (e e' : String × Procedure) : Prop :=
  e'.1 = e.1 ∧ ∃ n, e'.2 = (Labelling.procedure e.2 n).1

/-- `THIS` is put in front of the parameters before or after labels are given out. -/
theorem labelled_asMethod (q : Procedure) (n : Nat) :
    Machine.asMethod (Labelling.procedure q n).1 =
      (Labelling.procedure (Machine.asMethod q) n).1 := by
  cases q with
  | sub name r => cases r; rfl
  | function name result r => cases r; rfl

/-- The methods of a type are loaded under the same names with other labels. -/
theorem labelled_methods (d : TypeDecl) (qs : List Procedure) (n : Nat) :
    List.Forall₂ LabelledEntry
      (qs.map fun q => (d.methodName q.name, Machine.asMethod q))
      ((Labelling.procedures qs n).1.map fun q => (d.methodName q.name, Machine.asMethod q)) := by
  induction qs generalizing n with
  | nil => exact .nil
  | cons q rest ih =>
    have hname : (Labelling.procedure q n).1.name = q.name := by cases q <;> rfl
    refine .cons ⟨?_, n, labelled_asMethod q n⟩ (ih _)
    show d.methodName (Labelling.procedure q n).1.name = _
    rw [hname]

/-- A statement loads the same procedures with other labels. -/
theorem labelled_stmt (s : Stmt) (n : Nat) :
    List.Forall₂ LabelledEntry s.procedures (Labelling.stmt s n).1.procedures := by
  cases s with
  | procedure q => cases q <;> exact .cons ⟨rfl, n, rfl⟩ .nil
  | typeBlock d =>
    obtain ⟨name, parent, fields, methods⟩ := d
    exact labelled_methods ⟨name, parent, fields, methods⟩ methods n
  | _ => exact .nil

/-- Giving out labels changes nothing but labels in what a program loads. -/
theorem labelled_procedures (p : Program) (n : Nat) :
    List.Forall₂ LabelledEntry p.procedures (p.relabel n).1.procedures := by
  obtain ⟨statements⟩ := p
  show List.Forall₂ LabelledEntry (statements.flatMap Stmt.procedures)
    ((Labelling.stmts statements n).1.flatMap Stmt.procedures)
  induction statements generalizing n with
  | nil => exact .nil
  | cons s rest ih => exact List.rel_append (labelled_stmt s n) (ih _)

/-- The same of the procedures that are loaded under one name. -/
theorem Program.loadedAs_relabel (p : Program) (n : Nat) (name : String) :
    List.Forall₂ (fun q q' => ∃ k, q' = (Labelling.procedure q k).1) (p.loadedAs name)
      ((p.relabel n).1.loadedAs name) := by
  have hlabelled := labelled_procedures p n
  unfold loadedAs
  generalize p.procedures = entries, (p.relabel n).1.procedures = entries' at hlabelled
  induction hlabelled with
  | nil => exact .nil
  | @cons e e' entries entries' he _ ih =>
    rw [List.filterMap_cons, List.filterMap_cons, he.1]
    by_cases hname : e.1 = name
    · rw [if_pos hname, if_pos hname]
      exact .cons he.2 ih
    · rw [if_neg hname, if_neg hname]
      exact ih

/-! ## Calling what is loaded -/

namespace Engine

/-- Executes a SUB. -/
def callSub (g : Engine) (cx : Context) (r : Routine) (args : List Value)
    (named : List NamedValue) : Run Value := do
  let flow ← g.callRoutine cx r args named
  flow.endSub

/-- Executes a procedure that is loaded under a name. -/
def callLoaded (g : Engine) (cx : Context) (name : String) (q : Procedure) (args : List Value)
    (named : List NamedValue) : Run Value :=
  match q with
  | .sub _ r => g.callSub cx r args named
  | .function _ result r => g.callFunction cx ⟨name, result.map (·.name), r⟩ args named

variable (g : Engine) (cx : Context) {m : Machine} {name : String} (args : List Value)
  (named : List NamedValue)

/-- A SUB is called before a FUNCTION of the same name. -/
theorem callProcedure?_of_sub {r : Routine} (h : Table.get? m.subs name = some r) :
    g.callProcedure? cx m name args named = some (g.callSub cx r args named) := by
  unfold callProcedure?
  rw [h]
  rfl

/-- A FUNCTION is called if no SUB has its name. -/
theorem callProcedure?_of_function {f : FunctionDecl} (hsub : Table.get? m.subs name = none)
    (h : Table.get? m.functions name = some f) :
    g.callProcedure? cx m name args named = some (g.callFunction cx f args named) := by
  unfold callProcedure?
  rw [hsub, h]
  rfl

/-- A name without SUB and FUNCTION calls no procedure. -/
theorem callProcedure?_of_none (hsub : Table.get? m.subs name = none)
    (h : Table.get? m.functions name = none) : g.callProcedure? cx m name args named = none := by
  unfold callProcedure?
  rw [hsub, h]
  rfl

/-- A procedure comes before everything else that a name may stand for. -/
theorem dispatch_of_procedure {call : Run Value}
    (h : g.callProcedure? cx m name args named = some call) :
    g.dispatch cx name args named m = call m := by
  unfold dispatch
  rw [Run.get_bind, h]

theorem callName_of_procedure {call : Run Value}
    (h : g.callProcedure? cx m name args named = some call) :
    g.callName cx name args named m = call m := by
  unfold callName
  rw [Run.get_bind, h]

/-- A type comes next. -/
theorem dispatch_of_type {object : Value} (h : g.callProcedure? cx m name args named = none)
    (hobject : m.instance? cx name = some object) :
    g.dispatch cx name args named m = .ok (construct object named) m := by
  unfold dispatch
  rw [Run.get_bind, h]
  dsimp only
  rw [hobject]
  rfl

/-- A native comes last. -/
theorem dispatch_of_native (h : g.callProcedure? cx m name args named = none)
    (hobject : m.instance? cx name = none)
    (hvar : (m.chain.lookup? name).filter Value.isCallable = none) :
    g.dispatch cx name args named m = Run.reply (cx.host.natives.call name args) m := by
  unfold dispatch
  rw [Run.get_bind, h]
  dsimp only
  rw [hobject]
  dsimp only
  rw [hvar]

end Engine

end BasicScript
