import BasicScript.Machine.Call

/-!
# Evaluating expressions

One level of evaluation: the parts of an expression are left to the engine.  Operands, arguments and
items are evaluated from left to right, and AND, OR and XOR always evaluate both operands.
-/

namespace BasicScript

namespace Engine

/-- Applies indices one after the other. -/
def indices (g : Engine) (target : Value) : List Expr → Run Value
  | [] => return target
  | e :: rest => do
    let i ← g.eval e
    g.indices (target.itemAt i) rest

/-- The fields of a map literal; a later entry takes the place of an earlier one with its key. -/
def entries (g : Engine) (fields : Table Value) : List (Expr × Expr) → Run (Table Value)
  | [] => return fields
  | (k, e) :: rest => do
    let key ← g.eval k
    let v ← g.eval e
    g.entries (Table.insert fields (Value.normalizeKey key.toText) v) rest

/-- The texts of the parts of an interpolated text behind the text so far. -/
def parts (g : Engine) (done : String) : List Expr → Run String
  | [] => return done
  | e :: rest => do
    let v ← g.eval e
    g.parts (done ++ v.toText) rest

/-- The results of a comprehension for each item that passes the filter. -/
def comprehend (g : Engine) (item : Expr) (var : Ident) (filter : Option Expr) :
    List Value → Run (List Value)
  | [] => return []
  | v :: rest => do
    Run.modifyChain (·.bind var.name v)
    let wanted ← match filter with
      | some cond => (return (← g.eval cond).isTruthy)
      | none => pure true
    if wanted then
      let r ← g.eval item
      return r :: (← g.comprehend item var filter rest)
    else g.comprehend item var filter rest

/-- The result of the first arm whose pattern fits. -/
def arms (g : Engine) (subject : Value) (otherwise : Option Expr) : List (Expr × Expr) → Run Value
  | [] => g.eval? otherwise
  | (pattern, result) :: rest => do
    let p ← g.eval pattern
    if subject.fits p then g.eval result else g.arms subject otherwise rest

end Engine

/-- The keys that are no properties of an object. -/
def hiddenKeys : List String :=
  [Value.typeKey, Value.objectKey, Value.methodKey, Value.functionKey]

/-- The names of the properties of a value. -/
def propertiesOf : Value → List String
  | .map fields => (Table.keys fields).filter fun k => !hiddenKeys.contains k
  | _ => []

/-- An array of texts. -/
def textArray (texts : List String) : Value :=
  .array (texts.map .str)

/-- The value of an expression. -/
def evalStep (cx : Context) (g : Engine) (e : Expr) : Run Value :=
  match e with
  | .nil => return .nil
  | .bool b => return .bool b
  | .int n => return .int n
  | .float x => return .float x
  | .str s => return .str s
  | .var name => Run.readVar name.name
  | .unary op operand => do
    let v ← g.eval operand
    Run.lift (v.unary op)
  | .binary op left right => do
    let a ← g.eval left
    let b ← g.eval right
    Run.lift (a.binary op b)
  | .index target is => do
    let v ← g.eval target
    g.indices v is
  | .call callee args named => do
    let args ← g.items args
    let named ← g.named named
    g.dispatch cx callee.name args named
  | .member object name => do
    let v ← g.receiver cx object
    Run.member cx v name.name
  | .methodCall object method args => g.callMember cx object method args
  | .array items => return .array (← g.items items)
  | .tuple items => return .array (← g.items items)
  | .map entries => return .map (← g.entries [] entries)
  | .lambda label routine => makeLambda label routine
  | .interpolated parts => return .str (← g.parts "" parts)
  | .range first last => do
    let a ← g.eval first
    let b ← g.eval last
    Run.lift (a.range b cx.config.maxElements)
  | .comprehension item var source filter => do
    let v ← g.eval source
    let results ← Run.within Chain.newBlock (g.comprehend item var filter (Value.itemsOf v))
    return .array results
  | .choose subject arms otherwise => do
    let v ← g.eval subject
    g.arms v otherwise arms
  | .safeMember object name => do
    let v ← g.eval object
    if v.isNil then return .nil else return (← get).memberOf cx v name.name
  | .safeIndex object index => do
    let v ← g.eval object
    if v.isNil then return .nil
    else
      let i ← g.eval index
      return v.itemAt i
  | .coalesce left right => do
    let v ← g.eval left
    if v.isNil then g.eval right else return v
  | .spread inner => g.eval inner
  | .typeOf inner => return .str (← g.eval inner).typeName
  | .properties inner => return textArray (propertiesOf (← g.eval inner))
  | .methods inner => do
    let v ← g.eval inner
    match v.tag? with
    | some tag => return textArray ((← get).methodsOf cx tag)
    | none => return .array []
  | .superCall method args => g.callSuper cx method args

end BasicScript
