import BasicScript.Machine.Member

/-!
# Calls

A call by name runs, in this order: a SUB, a FUNCTION, the constructor of a type, the lambda or
method object in a variable, or a native.  The frame of a SUB or FUNCTION lies inside the scopes of
its caller; the frame of a lambda lies inside the root and starts with what the lambda has seen when
it was made.

Everything here is one level of the evaluator: it is given an `Engine`, the evaluator with less
fuel, for the expressions and statements inside a call.
-/

namespace BasicScript

/-- The evaluator with some fuel. -/
structure Engine where
  /-- How often a loop may go round. -/
  fuel : Nat
  eval : Expr → Run Value
  exec : Stmt → Run Flow

/-- A named argument with its value. -/
abbrev NamedValue := Ident × Value

namespace Engine

/-- Runs statements until one does not end normally. -/
def block (g : Engine) : List Stmt → Run Flow
  | [] => return .normal
  | s :: rest => do
    match ← g.exec s with
    | .normal => g.block rest
    | flow => return flow

/-- Evaluates items of a list; an array after `...` takes the place of one item. -/
def items (g : Engine) : List Expr → Run (List Value)
  | [] => return []
  | .spread inner :: rest => do
    match ← g.eval inner with
    | .array vs => return vs ++ (← g.items rest)
    | v => return v :: (← g.items rest)
  | e :: rest => do
    let v ← g.eval e
    return v :: (← g.items rest)

/-- Evaluates expressions one after the other. -/
def values (g : Engine) : List Expr → Run (List Value)
  | [] => return []
  | e :: rest => do
    let v ← g.eval e
    return v :: (← g.values rest)

/-- Evaluates named arguments. -/
def named (g : Engine) : List (Ident × Expr) → Run (List NamedValue)
  | [] => return []
  | (name, e) :: rest => do
    let v ← g.eval e
    return (name, v) :: (← g.named rest)

end Engine

/-! ## Parameters -/

/-- Puts a named argument into the place of its parameter; other names are passed over. -/
def placeNamed (params : List Binder) (places : List (Option Value)) (arg : NamedValue) :
    List (Option Value) :=
  match params.findIdx? (·.name = arg.1) with
  | some i => places.set i (some arg.2)
  | none => places

/-- The arguments of the parameters: by position, and then named ones in their place.  There is no
place for surplus arguments. -/
def placeArgs (params : List Binder) (args : List Value) (named : List NamedValue) :
    List (Option Value) :=
  named.foldl (placeNamed params)
    ((args.take params.length).map some ++ List.replicate (params.length - args.length) none)

/-- Binds the parameters that have an argument. -/
def bindPlaced (c : Chain) : List (Binder × Option Value) → Chain
  | [] => c
  | (p, some v) :: rest => bindPlaced (c.bind p.name.name v) rest
  | (_, none) :: rest => bindPlaced c rest

namespace Engine

/-- The value of an optional expression, the empty value if there is none. -/
def eval? (g : Engine) : Option Expr → Run Value
  | some e => g.eval e
  | none => return .nil

/-- Binds the parameters that have no argument to their defaults, each of which sees the parameters
before it. -/
def bindDefaults (g : Engine) : List (Binder × Option Value) → Run Unit
  | [] => return ()
  | (_, some _) :: rest => g.bindDefaults rest
  | (p, none) :: rest => do
    let v ← g.eval? p.init
    Run.modifyChain (·.bind p.name.name v)
    g.bindDefaults rest

/-- Binds parameters in the innermost scope. -/
def bindParams (g : Engine) (params : List Binder) (args : List Value) (named : List NamedValue) :
    Run Unit := do
  let placed := params.zip (placeArgs params args named)
  Run.modifyChain (bindPlaced · placed)
  g.bindDefaults placed

/-! ## Procedures and lambdas -/

/-- Runs a routine in a frame that is already open. -/
def enter (g : Engine) (r : Routine) (args : List Value) (named : List NamedValue) : Run Flow := do
  g.bindParams r.params args named
  g.block r.body

/-- Calls a routine in a frame inside the scopes of the caller. -/
def callRoutine (g : Engine) (cx : Context) (r : Routine) (args : List Value)
    (named : List NamedValue) : Run Flow :=
  Run.called cx.config.maxDepth (Run.within Chain.newFrame (g.enter r args named))

end Engine

/-- What a function or lambda yields when its body has ended with some flow. -/
def Flow.result : Flow → Run Value
  | .returned v => return v
  | .normal | .exited .function => return .nil
  | flow => throw (.signal flow)

/-- What a SUB does with the flow with which its body has ended. -/
def Flow.endSub : Flow → Run Value
  | .normal | .returned _ | .exited .sub => return .nil
  | flow => throw (.signal flow)

/-- The note about a function that did not return what it was declared to return. -/
def resultNote? (f : FunctionDecl) (v : Value) : Option String :=
  match f.result with
  | some type =>
    if v.isOfType type then none
    else some ("Warning: Function " ++ f.name ++ " declared AS " ++ type ++
      " returned " ++ v.typeName)
  | none => none

/-- The key of the number of a lambda. -/
def Value.lambdaIdKey : String := "_lambdaId"

/-- The key of what a lambda has seen. -/
def Value.closureKey : String := "_closure"

/-- The key of the number of a lambda's parameters. -/
def Value.paramCountKey : String := "_paramCount"

/-- The number by which a lambda value refers to the lambda of a label.  The numbers are large, so
that none is met by chance. -/
def lambdaId (label : Nat) : Int64 :=
  Int64.ofNat (0x10000000000 + label)

/-- Remembers the routine of a label. -/
def Machine.learn (m : Machine) (label : Nat) (r : Routine) : Machine :=
  if m.lambdas.any (·.1 == label) then m else { m with lambdas := (label, r) :: m.lambdas }

theorem Machine.chain_learn (m : Machine) (label : Nat) (r : Routine) :
    (m.learn label r).chain = m.chain := by
  unfold learn
  split <;> rfl

theorem Machine.depth_learn (m : Machine) (label : Nat) (r : Routine) :
    (m.learn label r).depth = m.depth := by
  unfold learn
  split <;> rfl

/-- The routine that the number of a lambda value refers to. -/
def Machine.lambda? (m : Machine) (fields : Table Value) : Option Routine :=
  match Table.get? fields Value.lambdaIdKey with
  | some (.int id) => (m.lambdas.find? fun e => lambdaId e.1 == id).map (·.2)
  | _ => none

/-- The value of a lambda: a copy of all bindings that it sees, and the number of its label. -/
def makeLambda (label : Nat) (r : Routine) : Run Value := do
  modify (·.learn label r)
  let closure ← Run.withChain Chain.snapshot
  return .map (Table.ofList [(Value.typeKey, .str Value.lambdaTag),
    (Value.paramCountKey, .int (Int64.ofNat r.params.length)),
    (Value.closureKey, .map closure), (Value.lambdaIdKey, .int (lambdaId label))])

/-- The bindings with which a lambda starts. -/
def closureOf (fields : Table Value) : Table Value :=
  match Table.get? fields Value.closureKey with
  | some (.map closure) => closure
  | _ => []

/-- A new object with the fields given by name. -/
def construct (object : Value) (named : List NamedValue) : Value :=
  match object with
  | .map fields => .map (named.foldl (fun fields a => Value.setKey fields a.1.name a.2) fields)
  | v => v

namespace Engine

/-- Calls a function, with a note in debug mode if it does not return what it was declared to. -/
def callFunction (g : Engine) (cx : Context) (f : FunctionDecl) (args : List Value)
    (named : List NamedValue) : Run Value := do
  let flow ← g.callRoutine cx f.routine args named
  let v ← flow.result
  if cx.config.debug then
    match resultNote? f v with
    | some text => Run.note text
    | none => pure ()
  return v

/-- Calls a procedure of the program, if there is one of that name. -/
def callProcedure? (g : Engine) (cx : Context) (m : Machine) (name : String) (args : List Value)
    (named : List NamedValue) : Option (Run Value) :=
  match Table.get? m.subs name with
  | some r => some do
    let flow ← g.callRoutine cx r args named
    flow.endSub
  | none => (Table.get? m.functions name).map fun f => g.callFunction cx f args named

/-- Calls what a name stands for, variables apart. -/
def callName (g : Engine) (cx : Context) (name : String) (args : List Value)
    (named : List NamedValue) : Run Value := do
  let m ← get
  match g.callProcedure? cx m name args named with
  | some call => call
  | none =>
    match m.instance? cx name with
    | some object => return construct object named
    | none => Run.reply (cx.host.natives.call name args)

/-- Calls a lambda. -/
def callLambda (g : Engine) (cx : Context) (fields : Table Value) (args : List Value) :
    Run Value := do
  match (← get).lambda? fields with
  | none => Run.fail (.typeError "lambda" "MAP")
  | some r =>
    let flow ← Run.called cx.config.maxDepth
      (Run.fromRoot (closureOf fields) (g.enter r args []))
    flow.result

/-- Calls a method object, with its object before the arguments. -/
def callMethod (g : Engine) (cx : Context) (fields : Table Value) (args : List Value) :
    Run Value :=
  match Value.textField? fields Value.functionKey with
  | none => return .nil
  | some function =>
    g.callName cx (Text.upper function) ((Table.get? fields Value.objectKey).toList ++ args) []

/-- Calls a lambda or a method object. -/
def invoke (g : Engine) (cx : Context) (callee : Value) (args : List Value) : Run Value :=
  match callee with
  | .map fields =>
    if callee.tag? = some Value.lambdaTag then g.callLambda cx fields args
    else if callee.tag? = some Value.methodTag then g.callMethod cx fields args
    else Run.fail (.typeError "callable" (callee.tag?.getD "MAP"))
  | v => Run.fail (.typeError "callable" v.kindName)

/-- Calls what a name stands for.  A variable with a lambda or method object comes after the
procedures and types of the program, and before the natives. -/
def dispatch (g : Engine) (cx : Context) (name : String) (args : List Value)
    (named : List NamedValue) : Run Value := do
  let m ← get
  match g.callProcedure? cx m name args named with
  | some call => call
  | none =>
    match m.instance? cx name with
    | some object => return construct object named
    | none =>
      match (m.chain.lookup? name).filter Value.isCallable with
      | some callee => g.invoke cx callee args
      | none => Run.reply (cx.host.natives.call name args)

/-- Calls the method of the parent of the type of `THIS`.  Where there is no object or no parent the
arguments are not even looked at. -/
def callSuper (g : Engine) (cx : Context) (method : Ident) (args : List Expr) : Run Value := do
  let m ← get
  match m.chain.lookup? "THIS" with
  | none => return .nil
  | some this =>
    match (this.tag?.bind (m.findType? cx)).bind (·.parent) with
    | none => return .nil
    | some parent =>
      let name := parent ++ "_" ++ method.name
      let args := this :: (← g.items args)
      if cx.host.natives.has name then Run.reply (cx.host.natives.call name args)
      else
        match g.callProcedure? cx (← get) name args [] with
        | some call => call
        | none => Run.fail (.unknownFunction name)

/-- The value of the object in `object.member`: a name without a binding may be a namespace. -/
def receiver (g : Engine) (cx : Context) (object : Expr) : Run Value := do
  match object with
  | .var name =>
    if ((← get).chain.lookup? name.name).isNone then
      match cx.host.namespaces.object? name.name with
      | some ns => return ns
      | none => g.eval object
    else g.eval object
  | object => g.eval object

/-- Puts the receiver in place of an empty answer. -/
def orTarget (target? : Option Value) (v : Value) : Value :=
  match target?, v with
  | some target, .nil => target
  | _, v => v

/-- Calls a method: what the member stands for if that can be called, a plain member if there are no
arguments, or else whatever the name of the method stands for. -/
def callMember (g : Engine) (cx : Context) (object : Expr) (method : Ident) (args : List Expr) :
    Run Value := do
  let receiver ← g.receiver cx object
  let args ← g.items args
  if receiver.isCallable && (method.name == "CALL" || method.name == "INVOKE") then
    g.invoke cx receiver args
  else
    let found := (← get).memberOf cx receiver method.name
    if found.isCallable then
      return orTarget (chainTarget? receiver found method.name) (← g.invoke cx found args)
    else if !found.isNil && args.isEmpty then return found
    else
      let target? := if isChainable method.name then some receiver else none
      return orTarget target? (← g.dispatch cx method.name args [])

end Engine

end BasicScript
