import BasicScript.Value.Index

/-!
# Writing into values

Values are never changed in place: a write gives the value as it is after the write.

* `writeAt` writes below a list of indices, as `a(i, j) = v` does.  Arrays grow as needed.
* `setMember` writes a field of a map by a name, in which dots lead to inner maps.
* `setBelow` writes a field behind a path of fields and indices, as `a.b(i).c = v` does.
* `reshape` builds an array of given sizes around what an old one held, and `slots` counts the
  places that such an array takes.
-/

namespace BasicScript.Value

/-- The parts of a list of characters between dots. -/
def splitDots : List Char → List (List Char)
  | [] => [[]]
  | c :: cs =>
    match splitDots cs with
    | part :: parts => if c == '.' then [] :: part :: parts else (c :: part) :: parts
    | [] => [[c]]

/-- The parts of a name between dots. -/
def segments (name : String) : List String :=
  (splitDots name.toList).map String.ofList

/-- The fields of a map; any other value has none. -/
def fieldsOf : Value → Table Value
  | map fields => fields
  | _ => []

/-- The field that a name finds, or the empty value. -/
def fieldAt (fields : Table Value) (name : String) : Value :=
  (Table.get? fields (fieldKey fields name)).getD nil

/-- Writes below a chain of names.  What is no map on the way is replaced by one. -/
def setFields (target : Value) (v : Value) : List String → Value
  | [] => v
  | name :: rest =>
    let fields := fieldsOf target
    map (setKey fields name (setFields (fieldAt fields name) v rest))

/-- Writes the field of a name, in which dots lead to inner maps. -/
def setMember (target : Value) (name : String) (v : Value) : Value :=
  setFields target v (segments name)

/-- The field behind a chain of names, if every name on the way finds a map. -/
def getFields? : Value → List String → Option Value
  | v, [] => some v
  | map fields, name :: rest => (lookup? fields name).bind (getFields? · rest)
  | _, _ :: _ => none

/-- One step on the way to a field. -/
inductive Step where
  | field (name : String)
  | index (i : Value)

/-- Writes a field behind a path.  A field that is missing on the way becomes a map; an index leads
on only where something stands. -/
def setBelow (target : Value) (path : List Step) (name : String) (v : Value) : Value :=
  match path with
  | [] => setMember target name v
  | .field field :: rest =>
    let fields := fieldsOf target
    map (setKey fields field (setBelow (fieldAt fields field) rest name v))
  | .index i :: rest =>
    match target with
    | map fields =>
      map (setKey fields i.toText (setBelow (fieldAt fields i.toText) rest name v))
    | array items =>
      match position? i with
      | some p =>
        match items[p]? with
        | some child => array (items.set p (setBelow child rest name v))
        | none => array items
      | none => array items
    | other => other

/-- The items of an array; any other value has none. -/
def itemsOf : Value → List Value
  | array items => items
  | _ => []

/-- Empty values behind a list until it has `n` items. -/
def padTo (n : Nat) (items : List Value) : List Value :=
  if n ≤ items.length then items else items ++ List.replicate (n - items.length) nil

/-- What a write below a place starts from: an array or a map stays, anything else makes room for
an array. -/
def container : Value → Value
  | array items => array items
  | map fields => map fields
  | _ => array []

/-- Writes below a list of indices.  A map is addressed by the text of the index.  An array grows up
to `max` items, and an index that denotes no place leaves the value as it is. -/
def writeAt (max : Nat) (v : Value) (target : Value) : List Value → Except Failure Value
  | [] => .ok v
  | i :: rest =>
    match target with
    | map fields => do
      let key := fieldKey fields i.toText
      let child ← writeAt max v ((Table.get? fields key).getD nil) rest
      return map (Table.insert fields key child)
    | target =>
      match position? i with
      | none => .ok target
      | some p =>
        let items := itemsOf target
        let needed := min (p + 1) maxCount
        if items.length ≤ p ∧ max < needed then
          .error (.allocationTooLarge "Indexed assignment" [Word.clamp p] needed)
        else do
          let items := padTo (p + 1) items
          let child := (items[p]?).getD nil
          let child := if rest.isEmpty then child else container child
          let child ← writeAt max v child rest
          return array (items.set p child)

/-- The larger of two counts that an array of these sizes needs: its innermost items, and the arrays
inside it.  Counts stop at the largest one that memory knows. -/
def slots (sizes : List Nat) : Nat :=
  let times (a b : Nat) : Nat := min (a * b) maxCount
  let product := sizes.foldl times 1
  let inner := sizes.dropLast.foldl
    (fun (sum, count) n => let count := times count n; (min (sum + count) maxCount, count)) (0, 1)
  if sizes.isEmpty then 0 else max product inner.1

/-- The first `n` items of a list, and nothing for each item that it lacks. -/
def firstItems (n : Nat) (items : List Value) : List (Option Value) :=
  (items.take n).map some ++ List.replicate (n - items.length) none

/-- An array of given sizes that holds what an old value held at the same places, and the empty
value at all others. -/
def reshape (old : Option Value) : List Nat → Value
  | [] => array []
  | [n] => array ((firstItems n (itemsOf (old.getD nil))).map (·.getD nil))
  | n :: rest => array ((firstItems n (itemsOf (old.getD nil))).map fun prev => reshape prev rest)

end BasicScript.Value
