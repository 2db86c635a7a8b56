import BasicScript.Value.Key

/-!
# Namespaces

A namespace gives names to native functions: `Window.open` stands for some native.  A namespace can
also be used as a value; it is then a map with one method object for each of its methods.
-/

namespace BasicScript

namespace Value

/-- The key of the receiver of a method object. -/
def objectKey : String := "_object"

/-- The key of the name of a method object's method. -/
def methodKey : String := "_method"

/-- The key of the name of what a method object calls. -/
def functionKey : String := "_function"

/-- The key of the namespace through which a method object was found. -/
def namespaceKey : String := "_namespace"

/-- The key of the name of a namespace. -/
def nameKey : String := "_name"

/-- The tag of method objects. -/
def methodTag : String := "Method"

/-- The tag of namespaces. -/
def namespaceTag : String := "Namespace"

/-- The tag of lambdas. -/
def lambdaTag : String := "Lambda"

/-- A method of an object: calls `function` with the object before the arguments. -/
def boundMethod (receiver : Value) (method function : String) : Value :=
  map (Table.ofList [(typeKey, str methodTag), (objectKey, receiver), (methodKey, str method),
    (functionKey, str function)])

/-- A method of a namespace: calls `function`. -/
def namespaceMethod (ns method function : String) : Value :=
  map (Table.ofList [(typeKey, str methodTag), (namespaceKey, str ns), (methodKey, str method),
    (functionKey, str function)])

/-- Lambdas and method objects. -/
def isCallable (v : Value) : Bool :=
  v.tag? == some lambdaTag || v.tag? == some methodTag

end Value

/-- The namespaces of a host: for each name the functions of its methods, all in upper case. -/
abbrev Namespaces := Table (Table String)

namespace Namespaces

/-- Adds methods to a namespace, which is made if it is new. -/
def register (ns : Namespaces) (name : String) (methods : List (String × String)) : Namespaces :=
  let key := Text.upper name
  let old := (Table.get? ns key).getD []
  Table.insert ns key
    (Table.insertAll old (methods.map fun (method, f) => (Text.upper method, Text.upper f)))

/-- There is a namespace of that name. -/
def has (ns : Namespaces) (name : String) : Bool :=
  Table.contains ns (Text.upper name)

/-- The function of a method. -/
def resolve? (ns : Namespaces) (name method : String) : Option String :=
  (Table.get? ns (Text.upper name)).bind (Table.get? · (Text.upper method))

/-- The namespace as a value. -/
def object? (ns : Namespaces) (name : String) : Option Value :=
  let key := Text.upper name
  (Table.get? ns key).map fun methods =>
    let fields := Table.ofList
      [(Value.typeKey, .str Value.namespaceTag), (Value.nameKey, .str key)]
    .map (Table.insertAll fields (methods.map fun (method, f) =>
      (method, Value.namespaceMethod key method f)))

end Namespaces

end BasicScript
