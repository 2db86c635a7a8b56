import BasicScript.Failure

/-!
# Scopes

A variable lives in a scope.  Scopes lie inside each other; the outermost one, the root, holds the
global variables.  A scope opened by a call is a *frame*, other scopes are blocks inside a frame.
Reading looks through all scopes from the innermost outward.  A plain assignment writes where the
name is bound inside the nearest frame, or else binds it in the innermost scope.  In a scope where a
name is marked GLOBAL it stands for the variable of the root.

A `Chain` is never empty and its root is never closed.

* Reading: `Chain.lookup?`, `Chain.isConst`, `Chain.isDeclared`, `Chain.get`, `Chain.snapshot`.
* Writing: `Chain.set`, `Chain.define`, `Chain.defineLocal`, `Chain.defineConst`, `Chain.bind`.
-/

namespace BasicScript

/-- One scope. -/
structure Scope where
  vars : Table Value := []
  /-- Names bound by CONST in this scope. -/
  consts : List String := []
  /-- Names declared in this scope, which OPTION EXPLICIT asks for. -/
  declared : List String := []
  /-- Names that stand for the variable of the root in this scope. -/
  globals : List String := []
  /-- OPTION EXPLICIT is in force. -/
  strict : Bool := false
  /-- The scope was opened by a call; the root counts as opened so too. -/
  frame : Bool := true

namespace Scope

/-- Adds a name to a list of names. -/
def addName (names : List String) (name : String) : List String :=
  if name ∈ names then names else name :: names

/-- Gives a variable of this scope a value. -/
def write (s : Scope) (name : String) (v : Value) : Scope :=
  { s with vars := Table.insert s.vars name v }

/-- Marks a name as declared. -/
def declare (s : Scope) (name : String) : Scope :=
  { s with declared := addName s.declared name }

/-- Declares a variable of this scope and gives it a value. -/
def bind (s : Scope) (name : String) (v : Value) : Scope :=
  (s.declare name).write name v

/-- The name is declared or bound here. -/
def knows (s : Scope) (name : String) : Bool :=
  name ∈ s.declared || Table.contains s.vars name

/-- Binds all entries of a table. -/
def bindAll (s : Scope) (entries : Table Value) : Scope :=
  entries.foldl (fun s e => s.bind e.1 e.2) s

end Scope

/-- The scopes around a place of a program, the innermost one first, and the root. -/
structure Chain where
  inner : List Scope := []
  root : Scope := {}

namespace Chain

/-- The innermost scope. -/
def top (c : Chain) : Scope :=
  c.inner.headD c.root

/-- Changes the innermost scope. -/
def modifyTop (c : Chain) (f : Scope → Scope) : Chain :=
  match c.inner with
  | [] => { c with root := f c.root }
  | s :: rest => { c with inner := f s :: rest }

/-- Puts a scope inside all others. -/
def push (c : Chain) (s : Scope) : Chain :=
  { c with inner := s :: c.inner }

/-- Takes the innermost scope away; the root stays. -/
def pop (c : Chain) : Chain :=
  { c with inner := c.inner.tail }

/-- The number of scopes, the root included. -/
def depth (c : Chain) : Nat :=
  c.inner.length + 1

/-- A new frame inside the innermost scope, as strict as that one. -/
def newFrame (c : Chain) : Scope :=
  { strict := c.top.strict, frame := true }

/-- A new block inside the innermost scope, as strict as that one. -/
def newBlock (c : Chain) : Scope :=
  { strict := c.top.strict, frame := false }

/-! ## Reading -/

/-- The value that a name has, seen from the innermost of a list of scopes inside a root. -/
def lookupIn (root : Scope) (name : String) : List Scope → Option Value
  | [] => Table.get? root.vars name
  | s :: rest =>
    if name ∈ s.globals then Table.get? root.vars name
    else match Table.get? s.vars name with
      | some v => some v
      | none => lookupIn root name rest

/-- The value that a name has. -/
def lookup? (c : Chain) (name : String) : Option Value :=
  lookupIn c.root name c.inner

/-- The nearest binding of a name is a constant, seen from the innermost of a list of scopes. -/
def isConstIn (root : Scope) (name : String) : List Scope → Bool
  | [] => name ∈ root.consts
  | s :: rest =>
    if name ∈ s.globals then name ∈ root.consts
    else if name ∈ s.consts then true
    else if Table.contains s.vars name then false
    else isConstIn root name rest

/-- The nearest binding of a name is a constant. -/
def isConst (c : Chain) (name : String) : Bool :=
  isConstIn c.root name c.inner

/-- The name is declared or bound in some scope. -/
def isDeclared (c : Chain) (name : String) : Bool :=
  c.inner.any (·.knows name) || c.root.knows name

/-- Reads a variable.  A name without a binding has the empty value, unless it was never declared
and OPTION EXPLICIT asks for that. -/
def get (c : Chain) (name : String) : Except Failure Value :=
  match c.lookup? name with
  | some v => .ok v
  | none =>
    if c.top.strict && !c.isDeclared name then .error (.undeclaredVariable name) else .ok .nil

/-- All bindings that can be seen, the nearest one of each name. -/
def snapshot (c : Chain) : Table Value :=
  c.inner.foldr (fun s t => Table.insertAll t s.vars) c.root.vars

/-! ## Writing -/

/-- Marks a name GLOBAL in the innermost scope; under OPTION EXPLICIT that declares it in the
root. -/
def addGlobal (c : Chain) (name : String) : Chain :=
  let c := c.modifyTop fun s => { s with globals := Scope.addName s.globals name }
  if c.top.strict then { c with root := c.root.declare name } else c

/-- Writes the variable of the root, for a scope that is strict or not. -/
def setRoot (root : Scope) (strict : Bool) (name : String) (v : Value) : Except Failure Scope :=
  if name ∈ root.consts then .error (.constAssignment name)
  else if strict && !root.knows name then .error (.undeclaredAssignment name)
  else .ok (root.write name v)

/-- The name is bound or marked GLOBAL in one of the scopes up to the nearest frame. -/
def bindsInFrame (root : Scope) (name : String) : List Scope → Bool
  | [] => Table.contains root.vars name || name ∈ root.globals
  | s :: rest =>
    Table.contains s.vars name || name ∈ s.globals || (!s.frame && bindsInFrame root name rest)

/-- Writes a name where it is bound or marked GLOBAL up to the nearest frame, or else in the
innermost of the scopes. -/
def assignIn (root : Scope) (name : String) (v : Value) : List Scope → Except Failure Chain
  | [] =>
    if name ∈ root.globals then (setRoot root root.strict name v).map fun root => ⟨[], root⟩
    else .ok ⟨[], root.write name v⟩
  | s :: rest =>
    if name ∈ s.globals then (setRoot root s.strict name v).map fun root => ⟨s :: rest, root⟩
    else if Table.contains s.vars name || s.frame || !bindsInFrame root name rest then
      .ok ⟨s.write name v :: rest, root⟩
    else (assignIn root name v rest).map fun c => c.push s

/-- Assigns to a variable. -/
def set (c : Chain) (name : String) (v : Value) : Except Failure Chain :=
  if name ∈ c.top.globals then
    (setRoot c.root c.top.strict name v).map fun root => { c with root }
  else if c.isConst name then .error (.constAssignment name)
  else if c.top.strict && !c.isDeclared name then .error (.undeclaredAssignment name)
  else assignIn c.root name v c.inner

/-- Declares a variable in the innermost scope and gives it a value, whatever stood there. -/
def bind (c : Chain) (name : String) (v : Value) : Chain :=
  c.modifyTop (·.bind name v)

/-- Declares a variable in the innermost scope, or writes the variable of the root where the name is
marked GLOBAL; a constant that can be seen forbids both.  The chain comes back also after a failure:
a write to the root that fails leaves the name declared in the innermost scope. -/
def define (c : Chain) (name : String) (v : Value) : Chain × Except Failure Unit :=
  if c.isConst name then (c, .error (.constAssignment name))
  else if name ∈ c.top.globals then
    let c := c.modifyTop (·.declare name)
    match setRoot c.root c.top.strict name v with
    | .ok root => ({ c with root }, .ok ())
    | .error e => (c, .error e)
  else (c.bind name v, .ok ())

/-- Declares a variable in the innermost scope, even where the name is marked GLOBAL. -/
def defineLocal (c : Chain) (name : String) (v : Value) : Except Failure Chain :=
  if name ∈ c.top.consts then .error (.constAssignment name) else .ok (c.bind name v)

/-- Declares a constant in the innermost scope, in place of anything outside it. -/
def defineConst (c : Chain) (name : String) (v : Value) : Except Failure Chain :=
  if name ∈ c.top.consts then .error (.constAssignment name)
  else .ok (c.modifyTop fun s => { s with consts := Scope.addName s.consts name }.bind name v)

end Chain

end BasicScript
