import BasicScript.Text.CaseTable

/-!
# Upper and lower case

Names of the language are compared without regard to case, so they are kept in one canonical form:
upper case, by the full mapping in which one character may become several (`ß` becomes `SS`).
Lower case knows one rule of context: a capital sigma at the end of a word becomes `ς`.

* `upper` works character by character, `lower` looks at the neighbours of a sigma.
* `eqAsciiCase` compares two texts up to the case of the 26 Latin letters only.
-/

namespace BasicScript.Text

/-- A code that is a character is read back from it. -/
theorem toNat_ofNat {n : Nat} (h : n.isValidChar) : (Char.ofNat n).toNat = n := by
  unfold Char.ofNat
  rw [dif_pos h]
  rfl

/-- The first form that a list of runs gives for `n`. -/
def findRun (runs : List CaseRun) (n : Nat) : Option Nat :=
  runs.findSome? (·.map? n)

/-- The form of several characters listed for `n`. -/
def findExpansion (table : List CaseExpansion) (n : Nat) : Option (List Nat) :=
  (table.find? (·.code == n)).map (·.form)

/-- The upper-case form of one character. -/
def upperChar (c : Char) : List Char :=
  if c.val < 128 then [c.toUpper]
  else match findRun upperRuns c.toNat with
    | some n => [Char.ofNat n]
    | none => match findExpansion upperExpansions c.toNat with
      | some ns => ns.map Char.ofNat
      | none => [c]

/-- The lower-case form of one character, a final sigma apart. -/
def lowerChar (c : Char) : List Char :=
  if c.val < 128 then [c.toLower]
  else match findRun lowerRuns c.toNat with
    | some n => [Char.ofNat n]
    | none => match findExpansion lowerExpansions c.toNat with
      | some ns => ns.map Char.ofNat
      | none => [c]

/-- The text in upper case. -/
def upper (s : String) : String :=
  String.ofList (s.toList.flatMap upperChar)

/-- A letter that has a case. -/
def isCased (c : Char) : Bool :=
  if c.val < 128 then c.isAlpha else casedRanges.any (·.has c.toNat)

/-- A mark that neither begins nor ends a word. -/
def isCaseIgnored (c : Char) : Bool :=
  if c.val < 128 then c == '\'' || c == '.' || c == ':' || c == '^' || c.toNat == 0x60
  else ignoredRanges.any (·.has c.toNat)

/-- The characters go on with a cased letter, ignored marks passed over. -/
def goesOnCased (cs : List Char) : Bool :=
  match cs.dropWhile isCaseIgnored with
  | c :: _ => isCased c
  | [] => false

/-- Lower case of `rest`, where `before` are the characters to its left, nearest first. -/
def lowerAfter (before : List Char) : List Char → List Char
  | [] => []
  | c :: rest =>
    let form :=
      if c == 'Σ' then
        if goesOnCased before && !goesOnCased rest then ['ς'] else ['σ']
      else lowerChar c
    form ++ lowerAfter (c :: before) rest

/-- The text in lower case. -/
def lower (s : String) : String :=
  String.ofList (lowerAfter [] s.toList)

/-- Equality of characters in order up to the case of the Latin letters `a` to `z`. -/
def eqCharsAsciiCase : List Char → List Char → Bool
  | [], [] => true
  | a :: as, b :: bs => a.toLower == b.toLower && eqCharsAsciiCase as bs
  | _, _ => false

/-- Equality of texts up to the case of the Latin letters `a` to `z`. -/
def eqAsciiCase (s t : String) : Bool :=
  eqCharsAsciiCase s.toList t.toList

theorem eqCharsAsciiCase_iff {cs ds : List Char} :
    eqCharsAsciiCase cs ds = true ↔ cs.map Char.toLower = ds.map Char.toLower := by
  induction cs generalizing ds with
  | nil => cases ds <;> simp [eqCharsAsciiCase]
  | cons c cs ih => cases ds <;> simp [eqCharsAsciiCase, ih]

end BasicScript.Text
