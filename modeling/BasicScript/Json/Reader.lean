import BasicScript.Json.Token

/-!
# Reading a JSON text

The reader takes tokens one by one and keeps the arrays and objects that are still open in a list,
so a text may be nested to any depth.  How deep a program may be nested is a matter of its decoder.

* `Reader.feed` takes one token.
* `Json.parse?` reads a whole text, with blanks around it and nothing else.
-/

namespace BasicScript.Json

/-- An array or object that is still open, with what it holds so far, the last item first. -/
inductive Open where
  | arr (items : List Json)
  | obj (members : List (JsonText × Json)) (name : JsonText)

/-- What the reader waits for. -/
inductive Place where
  | value
  /-- An array has just been opened: a value or its end. -/
  | firstItem
  /-- An object has just been opened: a name or its end. -/
  | firstName
  /-- A name, after a comma in an object with these members. -/
  | name (members : List (JsonText × Json))
  /-- The colon after a name. -/
  | colon (members : List (JsonText × Json)) (name : JsonText)
  /-- What follows a complete value. -/
  | after (v : Json)

/-- A reader between two tokens. -/
structure Reader where
  open_ : List Open
  place : Place

namespace Reader

/-- The reader before the first token. -/
def start : Reader := ⟨[], .value⟩

/-- Takes the first token of a value inside the containers `os`. -/
def feedValue (os : List Open) : Token → Option Reader
  | .null => some ⟨os, .after .null⟩
  | .bool b => some ⟨os, .after (.bool b)⟩
  | .num n => some ⟨os, .after (.num n)⟩
  | .str s => some ⟨os, .after (.str s)⟩
  | .openArr => some ⟨os, .firstItem⟩
  | .openObj => some ⟨os, .firstName⟩
  | _ => none

/-- Takes the token after a complete value. -/
def feedAfter (v : Json) : List Open → Token → Option Reader
  | .arr items :: os, .comma => some ⟨.arr (v :: items) :: os, .value⟩
  | .arr items :: os, .closeArr => some ⟨os, .after (.arr (v :: items).reverse)⟩
  | .obj members name :: os, .comma => some ⟨os, .name ((name, v) :: members)⟩
  | .obj members name :: os, .closeObj => some ⟨os, .after (.obj ((name, v) :: members).reverse)⟩
  | _, _ => none

/-- Takes one token. -/
def feed (r : Reader) (t : Token) : Option Reader :=
  match r.place, t with
  | .value, t => feedValue r.open_ t
  | .firstItem, .closeArr => some ⟨r.open_, .after (.arr [])⟩
  | .firstItem, t => feedValue (.arr [] :: r.open_) t
  | .firstName, .closeObj => some ⟨r.open_, .after (.obj [])⟩
  | .firstName, .str s => some ⟨r.open_, .colon [] s⟩
  | .name members, .str s => some ⟨r.open_, .colon members s⟩
  | .colon members s, .colon => some ⟨.obj members s :: r.open_, .value⟩
  | .after v, t => feedAfter v r.open_ t
  | _, _ => none

/-- The document, once it is complete. -/
def result? : Reader → Option Json
  | ⟨[], .after v⟩ => some v
  | _ => none

/-- Feeds the tokens of a text.  Each token has a character, so a fuel of more than the length of
the text suffices. -/
def feedText : Nat → Reader → List Char → Option Reader
  | 0, _, _ => none
  | fuel + 1, r, cs =>
    match cs.dropWhile isSpace with
    | [] => some r
    | cs => do
      let (t, rest) ← nextToken? cs
      let r ← r.feed t
      feedText fuel r rest

end Reader

/-- The document that a list of characters spells. -/
def parseChars? (cs : List Char) : Option Json :=
  (Reader.start.feedText (cs.length + 1) cs).bind Reader.result?

/-- The document that a text spells. -/
def parse? (s : String) : Option Json :=
  parseChars? s.toList

end BasicScript.Json
