import BasicScript.Failure
import BasicScript.Journal

/-!
# Native functions

Functions that the host supplies.  Their names are matched in any case.  A native sees its arguments
and answers with a value or a failure; what it does besides goes to the journal.
-/

namespace BasicScript

/-- How many arguments a native takes. -/
inductive Arity where
  | exact (n : Nat)
  | variadic
deriving DecidableEq, Repr

namespace Arity

/-- The arity that a host declares by a number: a negative one allows any number of arguments. -/
def ofDeclared (n : Int) : Arity :=
  if 0 ≤ n then exact n.toNat else variadic

/-- The arity allows `count` arguments. -/
def accepts : Arity → Nat → Bool
  | exact n, count => n == count
  | variadic, _ => true

end Arity

/-- What a native answers. -/
structure Reply where
  events : List Event := []
  result : Except Failure Value

/-- A native function. -/
structure Native where
  name : String
  arity : Arity
  run : List Value → Reply

namespace Native

/-- Calls a native, if the number of arguments is right. -/
def invoke (f : Native) (args : List Value) : Reply :=
  match f.arity with
  | .exact expected =>
    if expected ≠ args.length then
      { result := .error (.arityMismatch f.name expected args.length) }
    else f.run args
  | .variadic => f.run args

end Native

/-- The natives of a host by their names in upper case. -/
abbrev Natives := Table Native

/-- A native was registered under a name that is taken. -/
structure DuplicateNative where
  name : String

namespace Natives

/-- The native of a name. -/
def find? (ns : Natives) (name : String) : Option Native :=
  Table.get? ns (Text.upper name)

/-- There is a native of that name. -/
def has (ns : Natives) (name : String) : Bool :=
  (find? ns name).isSome

/-- Registers a native, in place of one with the same name. -/
def replace (ns : Natives) (name : String) (arity : Arity) (run : List Value → Reply) : Natives :=
  let key := Text.upper name
  Table.insert ns key ⟨key, arity, run⟩

/-- Registers a native, unless its name is taken. -/
def register (ns : Natives) (name : String) (arity : Arity) (run : List Value → Reply) :
    Except DuplicateNative Natives :=
  let key := Text.upper name
  if Table.contains ns key then .error ⟨key⟩ else .ok (replace ns key arity run)

/-- Calls the native of a name. -/
def call (ns : Natives) (name : String) (args : List Value) : Reply :=
  match find? ns name with
  | some f => f.invoke args
  | none => { result := .error (.unknownFunction (Text.upper name)) }

end Natives

end BasicScript
