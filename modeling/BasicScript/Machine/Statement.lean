import BasicScript.Machine.Expression

/-!
# Executing statements

One level of execution: expressions and the bodies of statements are left to the engine.  A loop
asks after each round what its body's flow means for it; a call frame takes up the flows that end a
procedure.

A FINALLY block runs on every way out of a TRY.  If it fails or does not end normally, that is how
the TRY ends.
-/

namespace BasicScript

/-! ## Loops -/

/-- Goes round until a round says to leave. -/
def iterate : Nat → Run LoopStep → Run Flow
  | 0, _ => throw .exhausted
  | fuel + 1, round => do
    match ← round with
    | .next => iterate fuel round
    | .leave => return .normal
    | .propagate flow => return flow

namespace Engine

/-- One round of a WHILE loop. -/
def whileRound (g : Engine) (cond : Expr) (body : List Stmt) : Run LoopStep := do
  if (← g.eval cond).isTruthy then return (← g.block body).stepOf .whileLoop else return .leave

/-- One round of a DO loop. -/
def doRound (g : Engine) (body : List Stmt) : Run LoopStep :=
  return (← g.block body).stepOf .doLoop

/-- One round of a REPEAT loop. -/
def repeatRound (g : Engine) (body : List Stmt) (cond : Expr) : Run LoopStep := do
  match (← g.block body).stepOf .repeatLoop with
  | .next => if (← g.eval cond).isTruthy then return .leave else return .next
  | step => return step

/-- The variable of a FOR loop has not passed its end. -/
def inRange (ascending : Bool) (current last : Value) : Bool :=
  match current.compare? last with
  | some o => if ascending then o != .gt else o != .lt
  | none => false

/-- One round of a FOR loop.  The variable is read anew before and after the body. -/
def forRound (g : Engine) (var : String) (last step : Value) (ascending : Bool)
    (body : List Stmt) : Run LoopStep := do
  let current ← Run.readVar var
  if inRange ascending current last then
    match (← g.block body).stepOf .forLoop with
    | .next =>
      let current ← Run.readVar var
      let next ← Run.lift (current.binary .add step)
      Run.writeChain (·.set var next)
      return .next
    | step => return step
  else return .leave

/-- A FOR loop. -/
def forLoop (g : Engine) (var : Ident) (first last : Expr) (step : Option Expr)
    (body : List Stmt) : Run Flow := do
  let first ← g.eval first
  let last ← g.eval last
  let step ← match step with
    | some e => g.eval e
    | none => pure (.int 1)
  if !step.isNumeric then Run.fail (.typeError "numeric STEP" step.kindName)
  else
    let ascending := step.compare? (.int 0) != some .lt
    Run.define var.name first
    iterate g.fuel (g.forRound var.name last step ascending body)

/-- The rounds of a FOR EACH loop. -/
def eachItem (g : Engine) (var : Ident) (body : List Stmt) : List Value → Run Flow
  | [] => return .normal
  | v :: rest => do
    Run.define var.name v
    match (← g.block body).stepOf .forLoop with
    | .next => g.eachItem var body rest
    | .leave => return .normal
    | .propagate flow => return flow

end Engine

/-- What a FOR EACH loop goes through: the items of an array, or an entry with KEY and VALUE for
each field of a map. -/
def elementsOf : Value → List Value
  | .array items => items
  | .map fields =>
    fields.map fun (k, v) => .map (Table.ofList [("KEY", .str k), ("VALUE", v)])
  | _ => []

namespace Engine

/-! ## Branches -/

/-- Runs the first body whose condition holds. -/
def branches (g : Engine) (otherwise : Option (List Stmt)) : List Guarded → Run Flow
  | [] =>
    match otherwise with
    | some body => g.block body
    | none => return .normal
  | ⟨cond, body⟩ :: rest => do
    if (← g.eval cond).isTruthy then g.block body else g.branches otherwise rest

/-- The selector equals one of the values; those after it are not evaluated. -/
def anyEqual (g : Engine) (selector : Value) : List Expr → Run Bool
  | [] => return false
  | e :: rest => do
    if selector.equals (← g.eval e) then return true else g.anyEqual selector rest

/-- A CASE matches the selector. -/
def testCase (g : Engine) (selector : Value) : CaseTest → Run Bool
  | .otherwise => return false
  | .values es => g.anyEqual selector es
  | .relational op e => return Value.holds op (selector.compare? (← g.eval e))

/-- Runs the first CASE that matches, or else the first CASE ELSE of all. -/
def cases (g : Engine) (selector : Value) (all : List CaseBranch) : List CaseBranch → Run Flow
  | [] =>
    match all.find? fun b => match b.test with | .otherwise => true | _ => false with
    | some b => g.block b.body
    | none => return .normal
  | ⟨test, body⟩ :: rest => do
    if ← g.testCase selector test then g.block body else g.cases selector all rest

end Engine

/-! ## Failures -/

/-- The value by which a handler sees a failure. -/
def Failure.toValue (e : Failure) : Value :=
  .tagged "Error" (Table.ofList [("MESSAGE", .str e.message), ("KIND", .str e.kind.name)])

namespace Engine

/-- Runs the body of a TRY, and its handler after a failure. -/
def guarded (g : Engine) (body : List Stmt) (handler : Option Handler) : Run Flow := fun m =>
  match g.block body m, handler with
  | .error (.failed e) m, some ⟨var, body⟩ =>
    let bindError (c : Chain) : Chain := match var with
      | some x => c.bind x.name e.toValue
      | none => c
    g.block body { m with chain := bindError m.chain }
  | r, _ => r

/-- Runs the FINALLY block of a TRY that has ended with some outcome. -/
def finish (g : Engine) (cleanup : List Stmt) (outcome : Except Halt Flow) : Run Flow := do
  match ← g.block cleanup with
  | .normal =>
    match outcome with
    | .ok flow => return flow
    | .error h => throw h
  | flow => return flow

/-- A TRY statement.  When the fuel is used up nothing runs any more. -/
def attempt (g : Engine) (body : List Stmt) (handler : Option Handler)
    (cleanup : Option (List Stmt)) : Run Flow :=
  match cleanup with
  | none => g.guarded body handler
  | some cleanup => fun m =>
    match g.guarded body handler m with
    | .ok flow m => g.finish cleanup (.ok flow) m
    | .error .exhausted m => .error .exhausted m
    | .error h m => g.finish cleanup (.error h) m

end Engine

/-- The message of a thrown value. -/
def thrownMessage : Value → String
  | .str s => s
  | .map fields => ((Value.lookup? fields "MESSAGE").map Value.toText).getD "Error thrown"
  | _ => "Error thrown"

/-! ## Assignments -/

/-- One step on the way to a member that is assigned to. -/
inductive TargetStep where
  | field (name : Ident)
  | index (i : Expr)

/-- The variable and the steps of a member that can be assigned to. -/
def assignTarget? : Expr → Option (Ident × List TargetStep)
  | .var name => some (name, [])
  | .member object name => (assignTarget? object).map fun (x, path) => (x, path ++ [.field name])
  | .index target is => (assignTarget? target).map fun (x, path) => (x, path ++ is.map .index)
  | _ => none

namespace Engine

/-- Evaluates the indices among steps. -/
def steps (g : Engine) : List TargetStep → Run (List Value.Step)
  | [] => return []
  | .field name :: rest => return .field name.name :: (← g.steps rest)
  | .index e :: rest => do
    let i ← g.eval e
    return .index i :: (← g.steps rest)

/-- Assigns below the indices of a variable. -/
def assignIndex (g : Engine) (cx : Context) (name : Ident) (is : List Expr) (value : Expr) :
    Run Unit := do
  if ← Run.withChain (·.isConst name.name) then Run.fail (.constAssignment name.name)
  else
    let is ← g.values is
    let v ← g.eval value
    let current ← Run.withChain fun c => (c.lookup? name.name).getD .nil
    let updated ← Run.lift (Value.writeAt cx.config.maxElements v current is)
    Run.writeChain (·.set name.name updated)

/-- Offers a write to the hooks of the host. -/
def offer (g : Engine) (cx : Context) (object : Expr) (place : Option (Ident × List Value.Step))
    (member : String) (v : Value) : Run Bool := do
  if cx.host.hooks.isEmpty then return false
  else
    let target ← match place with
      | some (root, path) => do
        let base ← g.receiver cx (.var root)
        pure ((← get).follow cx base path)
      | none => g.receiver cx object
    let answer := cx.host.hooks.assign target member v
    Run.log answer.events
    return answer.claimed

/-- The value of an assignment to a member, and its place if that is below a variable.  The indices
on the way are evaluated once. -/
def beforeWrite (g : Engine) (object value : Expr) :
    Run (Value × Option (Ident × List Value.Step)) := do
  let v ← g.eval value
  let place ← match assignTarget? object with
    | some (root, path) => (return some (root, ← g.steps path))
    | none => pure none
  return (v, place)

/-- Offers a value to the hooks and writes it to its place if they do not take it.  What is no
variable below is not assigned to. -/
def write (g : Engine) (cx : Context) (object : Expr) (member : Ident)
    (what : Value × Option (Ident × List Value.Step)) : Run Unit := do
  if ← g.offer cx object what.2 member.name what.1 then return ()
  else
    match what.2 with
    | none => return ()
    | some (root, path) =>
      if ← Run.withChain (·.isConst root.name) then Run.fail (.constAssignment root.name)
      else
        let current ← Run.withChain fun c => (c.lookup? root.name).getD .nil
        Run.writeChain (·.set root.name (current.setBelow path member.name what.1))

/-- Assigns to a member. -/
def assignMember (g : Engine) (cx : Context) (object : Expr) (member : Ident) (value : Expr) :
    Run Unit := do
  let what ← g.beforeWrite object value
  g.write cx object member what

end Engine

/-- Defines names one after the other. -/
def defineAll : List (Ident × Value) → Run Unit
  | [] => return ()
  | (name, v) :: rest => do
    Run.define name.name v
    defineAll rest

/-- Spreads the items of an array or the fields of a map over names.  Names beyond the end of an
array are left alone. -/
def destructure (names : List Ident) : Value → Run Unit
  | .array items => defineAll (names.zip items)
  | .map fields => defineAll (names.map fun n => (n, (Value.lookup? fields n.name).getD .nil))
  | v => Run.fail (.typeError "array or map" v.kindName)

namespace Engine

/-! ## Declarations -/

/-- Declares locals with their first values. -/
def locals (g : Engine) : List Binder → Run Unit
  | [] => return ()
  | ⟨name, init⟩ :: rest => do
    let v ← g.eval? init
    Run.writeChain (·.defineLocal name.name v)
    g.locals rest

/-- Declares the members of an enumeration as constants.  A member without a value is one more than
the member before it. -/
def enumerate (g : Engine) (name : Ident) (next : Int) : List Binder → Run Unit
  | [] => return ()
  | ⟨member, init⟩ :: rest => do
    let v ← match init with
      | some e => g.eval e
      | none => pure (.int (Int64.ofInt next))
    let next := Word.clamp ((match v with | .int n => n.toInt | _ => next) + 1)
    Run.writeChain (·.defineConst (name.name ++ "_" ++ member.name) v)
    g.enumerate name next rest

/-- The sizes of an array; a negative size counts as zero. -/
def sizes (g : Engine) : List Expr → Run (List Nat)
  | [] => return []
  | e :: rest => do
    let v ← g.eval e
    let n ← Run.lift v.truncated
    return n.toInt.toNat :: (← g.sizes rest)

end Engine

/-- Fails if an array of these sizes is over the limit. -/
def checkSizes (cx : Context) (what : String) (sizes : List Nat) : Run Unit :=
  let total := Value.slots sizes
  if cx.config.maxElements < total then
    Run.fail (.allocationTooLarge what (sizes.map Int.ofNat) total)
  else return ()

namespace Engine

/-- DIM declares an array of empty values. -/
def dim (g : Engine) (cx : Context) (name : Ident) (es : List Expr) : Run Unit := do
  let sizes ← g.sizes es
  checkSizes cx "DIM" sizes
  Run.define name.name (Value.reshape none sizes)

/-- REDIM assigns an array of new sizes, with PRESERVE around what the old one held. -/
def redim (g : Engine) (cx : Context) (name : Ident) (es : List Expr) (preserve : Bool) :
    Run Unit := do
  if ← Run.withChain (·.isConst name.name) then Run.fail (.constAssignment name.name)
  else
    let sizes ← g.sizes es
    if cx.config.debug then
      Run.note ("[REDIM] " ++ name.name ++ " sizes=[" ++
        Failure.sizesText (sizes.map Int.ofNat) ++ "]")
    checkSizes cx (if preserve then "REDIM PRESERVE" else "REDIM") sizes
    let old ← Run.withChain fun c => if preserve then c.lookup? name.name else none
    Run.writeChain (·.set name.name (Value.reshape old sizes))

end Engine

namespace Machine

/-- Loads a SUB or FUNCTION under a name. -/
def loadProcedure (m : Machine) (name : String) : Procedure → Machine
  | .sub _ r => { m with subs := Table.insert m.subs name r }
  | .function _ result r =>
    { m with functions := Table.insert m.functions name ⟨name, result.map (·.name), r⟩ }

/-- A procedure with the object as its first parameter. -/
def asMethod : Procedure → Procedure
  | .sub name r => .sub name ⟨⟨Ident.ofString "THIS", none⟩ :: r.params, r.body⟩
  | .function name result r =>
    .function name result ⟨⟨Ident.ofString "THIS", none⟩ :: r.params, r.body⟩

/-- Loads a type and its methods, which are procedures named for the type and the method. -/
def loadType (m : Machine) (d : TypeDecl) : Machine :=
  d.methods.foldl
    (fun m p => m.loadProcedure (Text.upper (d.name.name ++ "_" ++ p.name.name)) (asMethod p))
    { m with types := m.types.register (.ofDecl d) }

/-- Loads what a statement declares. -/
def loadStmt (m : Machine) : Stmt → Machine
  | .procedure p => m.loadProcedure p.name.name p
  | .typeBlock d => m.loadType d
  | _ => m

/-- Loads the declarations at the top level of a program. -/
def load (m : Machine) (p : Program) : Machine :=
  p.statements.foldl loadStmt m

end Machine

/-- A TYPE block that is met during a run declares a type that is still unknown. -/
def declareType (d : TypeDecl) : Run Unit :=
  modify fun m => if m.types.has d.name.name then m else m.loadType d

/-- The note of a BREAKPOINT: the bindings of the innermost scope. -/
def breakpointNote (s : Scope) : String :=
  "[BREAKPOINT] " ++ String.intercalate ", " (s.vars.map fun (name, v) => name ++ "=" ++ v.display)

/-! ## Statements -/

/-- A statement that ends normally. -/
def Run.normally (x : Run Unit) : Run Flow := do
  x
  return .normal

/-- How a statement ends. -/
def execStep (cx : Context) (g : Engine) (s : Stmt) : Run Flow :=
  match s with
  | .optionExplicit => Run.normally (Run.modifyChain (·.modifyTop ({ · with strict := true })))
  | .locals binders => Run.normally (g.locals binders)
  | .globals names =>
    Run.normally (Run.modifyChain fun c => names.foldl (fun c n => c.addGlobal n.name) c)
  | .define name value => Run.normally do
    let v ← g.eval value
    Run.define name.name v
  | .assign name value => Run.normally do
    let v ← g.eval value
    Run.writeChain (·.set name.name v)
  | .constant name value => Run.normally do
    let v ← g.eval value
    Run.writeChain (·.defineConst name.name v)
  | .assignIndex name is value => Run.normally (g.assignIndex cx name is value)
  | .assignMember object member value => Run.normally (g.assignMember cx object member value)
  | .destructure names value => Run.normally do
    let v ← g.eval value
    destructure names v
  | .print value => do
    let v ← g.eval value
    let _ ← Run.reply (cx.host.natives.call "PRINT" [v])
    return .normal
  | .expr value => do
    let _ ← g.eval value
    return .normal
  | .call name args named => do
    let args ← g.items args
    let named ← g.named named
    let _ ← g.dispatch cx name.name args named
    return .normal
  | .branch branches otherwise => g.branches otherwise branches
  | .whileLoop cond body => iterate g.fuel (g.whileRound cond body)
  | .forLoop var first last step body => g.forLoop var first last step body
  | .forEach var collection body => do
    let v ← g.eval collection
    g.eachItem var body (elementsOf v)
  | .doLoop body => iterate g.fuel (g.doRound body)
  | .repeatLoop body cond => iterate g.fuel (g.repeatRound body cond)
  | .select selector branches => do
    let v ← g.eval selector
    g.cases v branches branches
  | .returnWith value => return .returned (← g.eval? value)
  | .breakLoop => return .broke
  | .continueLoop => return .continued
  | .exit target => return .exited target
  | .dim name es => Run.normally (g.dim cx name es)
  | .redim name es preserve => Run.normally (g.redim cx name es preserve)
  | .procedure _ => return .normal
  | .typeBlock d => Run.normally (declareType d)
  | .enum name members => Run.normally (g.enumerate name 0 members)
  | .attempt body handler cleanup => g.attempt body handler cleanup
  | .raise value => do
    let v ← g.eval value
    Run.fail (.thrown (thrownMessage v))
  | .assertion cond message => do
    if (← g.eval cond).isTruthy then return .normal
    else
      match message with
      | some e => do
        let v ← g.eval e
        Run.fail (.assertionFailed (some v.toText))
      | none => Run.fail (.assertionFailed none)
  | .using name resource body => do
    let v ← g.eval resource
    Run.within (fun c => c.newBlock.bind name.name v) (g.block body)
  | .debugPrint value => do
    if cx.config.debug then
      let v ← g.eval value
      Run.note ("[DEBUG] " ++ v.display)
    return .normal
  | .breakpoint => do
    if cx.config.debug then
      let s ← Run.withChain Chain.top
      Run.note (breakpointNote s)
    return .normal

end BasicScript
