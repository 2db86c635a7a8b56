import BasicScript.Value.Basic

/-!
# Keys of maps

A key is stored in upper case, unless it begins with an underscore.  A field is found by the stored
form of the name asked for, or else by the first stored key that differs from the name only in the
case of Latin letters.
-/

namespace BasicScript.Value

/-- The form in which a key is stored. -/
def normalizeKey (key : String) : String :=
  if key.toList.head? = some '_' then key else Text.upper key

/-- The stored key under which a name is found. -/
def findKey? (fields : Table Value) (name : String) : Option String :=
  let key := normalizeKey name
  if Table.contains fields key then some key
  else
    let chars := name.toList
    (Table.keys fields).find? fun k => Text.eqCharsAsciiCase k.toList chars

/-- The field that a name finds. -/
def lookup? (fields : Table Value) (name : String) : Option Value :=
  (findKey? fields name).bind (Table.get? fields)

/-- The key under which a field is written: the one that finds the field, or else the normal form
of the name. -/
def fieldKey (fields : Table Value) (name : String) : String :=
  (findKey? fields name).getD (normalizeKey name)

/-- Writes the field that a name finds. -/
def setKey (fields : Table Value) (name : String) (v : Value) : Table Value :=
  Table.insert fields (fieldKey fields name) v

end BasicScript.Value
