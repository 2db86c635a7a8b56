import BasicScript.Machine.Basic
import BasicScript.Spelling
import BasicScript.Value.Update

/-!
# Members of objects

What `object.member` stands for, in this order: the answer of a hook; a field of a map; a field of
inner maps, for a name with dots; a method of a namespace; the procedure `TYPE_MEMBER` of an object
of a type, bound to the object.  Texts and arrays have the procedures `STRING_MEMBER` and
`ARRAY_MEMBER`, and the properties `LENGTH` and `SIZE`.
-/

namespace BasicScript

namespace Machine

/-- There is a SUB, a FUNCTION or a native of that name. -/
def knows (cx : Context) (m : Machine) (name : String) : Bool :=
  Table.contains m.subs name || Table.contains m.functions name || cx.host.natives.has name

/-- The type of a name: one of the program, or else one of the host. -/
def findType? (cx : Context) (m : Machine) (name : String) : Option TypeInfo :=
  (m.types.find? name).or (cx.host.types.find? name)

/-- A new object of the type of a name. -/
def instance? (cx : Context) (m : Machine) (name : String) : Option Value :=
  (m.types.instance? name).or (cx.host.types.instance? name)

/-- The methods of the type of a name. -/
def methodsOf (cx : Context) (m : Machine) (name : String) : List String :=
  if m.types.has name then m.types.methodsOf name else cx.host.types.methodsOf name

/-- The procedure of a type for a member, bound to an object. -/
def typeMethod? (cx : Context) (m : Machine) (object : Value) (type member : String) :
    Option Value :=
  let method := Text.upper member
  let function := Text.upper type ++ "_" ++ method
  if m.knows cx function then some (.boundMethod object method function) else none

/-- The method of a namespace object. -/
def namespaceMethod? (cx : Context) (object : Value) (fields : Table Value) (member : String) :
    Option Value :=
  if object.tag? = some Value.namespaceTag then do
    let ns ← Value.textField? fields Value.nameKey
    let function ← cx.host.namespaces.resolve? ns member
    return .namespaceMethod ns (Text.upper member) function
  else none

/-- A member of a map. -/
def mapMember? (cx : Context) (m : Machine) (fields : Table Value) (member : String) :
    Option Value :=
  let object := Value.map fields
  (Value.lookup? fields member).or <|
    (if member.toList.contains '.' then object.getFields? (Value.segments member) else none).or <|
    (namespaceMethod? cx object fields member).or <|
    object.tag?.bind fun tag => m.typeMethod? cx object tag member

/-- A member of a text or an array of some length. -/
def builtinMember? (cx : Context) (m : Machine) (object : Value) (type member : String)
    (length : Nat) : Option Value :=
  (m.typeMethod? cx object type member).or <|
    match Text.upper member with
    | "LENGTH" | "SIZE" => some (.int (Int64.ofNat length))
    | _ => none

/-- What a member of an object stands for. -/
def member? (cx : Context) (m : Machine) (object : Value) (member : String) : Option Value :=
  (cx.host.hooks.resolve? object member).or <|
    match object with
    | .map fields => m.mapMember? cx fields member
    | .str s => m.builtinMember? cx object "STRING" member s.length
    | .array items => m.builtinMember? cx object "ARRAY" member items.length
    | _ => none

/-- What a member of an object stands for, or the empty value. -/
def memberOf (cx : Context) (m : Machine) (object : Value) (member : String) : Value :=
  (m.member? cx object member).getD .nil

/-- Follows a path of fields and indices. -/
def follow (cx : Context) (m : Machine) (v : Value) (path : List Value.Step) : Value :=
  path.foldl
    (fun v step => match step with
      | .field name => m.memberOf cx v name
      | .index i => v.itemAt i)
    v

end Machine

/-- The note about a member that a map does not have. -/
def missingMemberNote? (object : Value) (member : String) : Option String :=
  match object with
  | .map fields =>
    let keys := (Table.keys fields).filter fun k => k.toList.head? != some '_'
    some (Spelling.memberWarning member (object.tag?.getD "MAP") (Spelling.suggest member keys))
  | _ => none

namespace Run

/-- Reads a member; in debug mode there is a note where a map does not have it. -/
def member (cx : Context) (object : Value) (member : String) : Run Value := do
  match (← get).member? cx object member with
  | some v => return v
  | none =>
    if cx.config.debug then
      match missingMemberNote? object member with
      | some text => note text
      | none => pure ()
    return .nil

end Run

/-- Names of methods that change their object and answer with nothing. -/
def chainableStarts : List String :=
  ["SET", "ADD", "REMOVE", "CLEAR", "UPDATE", "MOVE", "SCALE", "ROTATE", "NORMALIZE",
    "TRANSFORM", "PUSH", "POP", "SHIFT", "UNSHIFT", "APPEND", "INSERT", "DELETE", "MODIFY",
    "CHANGE", "PREPEND"]

/-- A method whose call stands for its object when it answers with nothing. -/
def isChainable (method : String) : Bool :=
  let name := (Text.upper method).toList
  chainableStarts.any fun start => start.toList.isPrefixOf name

/-- What the call of a method object stands for when it answers with nothing. -/
def chainTarget? (receiver methodObject : Value) (method : String) : Option Value :=
  if isChainable method then some receiver
  else match methodObject with
    | .map fields =>
      match Value.textField? fields Value.methodKey with
      | some name =>
        if isChainable name && methodObject.tag? != some Value.lambdaTag then
          some ((Table.get? fields Value.objectKey).getD receiver)
        else none
      | none => none
    | _ => none

end BasicScript
