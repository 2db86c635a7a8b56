import BasicScript.Syntax.Tree
import BasicScript.Value.Basic

/-!
# Types

A type has fields, methods and possibly a parent, all by name.  Parents may be unknown, and they may
lead round in a circle, so a walk along the parents takes at most one step more than there are
types.

* `TypeTable.lineage` lists a type and the types it inherits from, the nearest first.
* `TypeTable.instance?` is a new object of a type, with all inherited fields.
* `TypeTable.methodsOf` lists the methods of a type and those it inherits.
* `TypeTable.isSubtype` asks whether one name leads to another along the parents.
-/

namespace BasicScript

/-- A type. -/
structure TypeInfo where
  name : String
  parent : Option String := none
  /-- Fields with the names of their declared types. -/
  fields : List (String × Option String) := []
  methods : List String := []

namespace TypeInfo

/-- A type with all names in upper case. -/
def canonical (t : TypeInfo) : TypeInfo :=
  { name := Text.upper t.name
    parent := t.parent.map Text.upper
    fields := t.fields.map fun (name, type) => (Text.upper name, type.map Text.upper)
    methods := t.methods.map Text.upper }

/-- The type that a TYPE block declares. -/
def ofDecl (d : TypeDecl) : TypeInfo :=
  { name := d.name.name
    parent := d.parent.map (·.name)
    fields := d.fields.map fun (name, type) => (name.name, type.map (·.name))
    methods := d.methods.map (·.name.name) }

end TypeInfo

/-- The value that a field of a declared type starts with. -/
def Value.initial (type : Option String) : Value :=
  match type.map Text.upper with
  | some "INTEGER" | some "INT" | some "LONG" => .int 0
  | some "DOUBLE" | some "SINGLE" | some "FLOAT" | some "NUMBER" => .float 0.0
  | some "STRING" => .str ""
  | some "BOOLEAN" | some "BOOL" => .bool false
  | _ => .nil

/-- Types by name. -/
abbrev TypeTable := Table TypeInfo

namespace TypeTable

/-- Registers a type, in place of one with the same name. -/
def register (ts : TypeTable) (t : TypeInfo) : TypeTable :=
  Table.insert ts t.name t

/-- The type of a name in any case. -/
def find? (ts : TypeTable) (name : String) : Option TypeInfo :=
  Table.get? ts (Text.upper name)

/-- There is a type of that name. -/
def has (ts : TypeTable) (name : String) : Bool :=
  (find? ts name).isSome

/-- The first types on the way from `t` along the parents, at most `fuel` of them. -/
def lineageFrom (ts : TypeTable) : Nat → TypeInfo → List TypeInfo
  | 0, _ => []
  | fuel + 1, t =>
    t :: match t.parent.bind (find? ts) with
      | some p => lineageFrom ts fuel p
      | none => []

/-- A type and the types it inherits from, the nearest first. -/
def lineage (ts : TypeTable) (t : TypeInfo) : List TypeInfo :=
  lineageFrom ts (ts.length + 1) t

/-- Sets the fields of a type to what they start with. -/
def initFields (fields : Table Value) (t : TypeInfo) : Table Value :=
  Table.insertAll fields (t.fields.map fun (name, type) => (name, Value.initial type))

/-- A new object of a type: the farthest type's fields first, so that nearer types win. -/
def instance? (ts : TypeTable) (name : String) : Option Value :=
  (find? ts name).map fun t =>
    .tagged t.name ((lineage ts t).foldr (fun t fields => initFields fields t) [])

/-- The names on the way from a name along the parents, at most `fuel` of them. -/
def ancestors (ts : TypeTable) : Nat → String → List String
  | 0, _ => []
  | fuel + 1, name =>
    name :: match (Table.get? ts name).bind (·.parent) with
      | some p => ancestors ts fuel p
      | none => []

/-- The type `child` is `parent` or inherits from it. -/
def isSubtype (ts : TypeTable) (child parent : String) : Bool :=
  (ancestors ts (ts.length + 1) (Text.upper child)).contains (Text.upper parent)

/-- The parent of a type. -/
def parentOf? (ts : TypeTable) (name : String) : Option String :=
  (find? ts name).bind (·.parent)

/-- Adds the names that a list does not have yet. -/
def addMissing (known names : List String) : List String :=
  names.foldl (fun known n => if known.contains n then known else known ++ [n]) known

/-- The methods of a type, then those it inherits, each once. -/
def methodsOf (ts : TypeTable) (name : String) : List String :=
  match find? ts name with
  | some t => (lineage ts t).foldl (fun known t => addMissing known t.methods) []
  | none => []

end TypeTable

end BasicScript
