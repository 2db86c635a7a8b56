import BasicScript.Proofs.RoundTrip.Tree

/-!
# Programs survive their documents

The text of a program's document, read and decoded, is the program again.  The document is laid out
and read back by `Json.parse?_pretty`; decoding it follows the tree, and the bound on its nesting is
the depth that the decoder allows.

Main statement: `parse?_dump`.
-/

namespace BasicScript

/-- A document of a plain program decodes to this program. -/
theorem ofJson?_toJson {p : Program} (hplain : Plain.program p = true)
    (hnesting : p.toJson.nesting ≤ Decoder.maxDepth) : Program.ofJson? p.toJson = some p := by
  have hparts : Parts (·.nesting ≤ Decoder.maxDepth - 1)
      [("statements", some (.arr (Encoder.stmts p.statements)))] := parts_of_nesting_le hnesting
  exact bind_parts (by decide) rfl <|
    bind_some (decodes_stmts p.statements hplain _ hparts.1) rfl

/-- **Programs survive their documents.**  The text of the document of a program gives the program
back, if its doubles are finite, its lambdas have no labels yet, and the document nests at most 127
arrays and objects. -/
theorem parse?_dump {p : Program} (hplain : Plain.program p = true)
    (hnesting : p.toJson.nesting ≤ 127) : Program.parse? p.dump = some p := by
  have hread : Json.parse? p.dump = some p.toJson := Json.parse?_pretty (readable_program p)
  rw [Program.parse?, hread]
  exact ofJson?_toJson hplain hnesting

/-- A program with texts that need escapes, the least integer, doubles at the ends of their range,
and optional parts that are missing and that are present. -/
def wideProgram : Program :=
  let x : Ident := .ofString "straße"
  let least : Expr := .int (-9223372036854775808)
  let tiny : Expr := .float (Float.ofBits 1)
  let tenth : Expr := .float (Float.ofBits 0x3FB999999999999A)
  let largest : Expr := .float (Float.ofBits 0x7FEFFFFFFFFFFFFF)
  let minusZero : Expr := .float (Float.ofBits 0x8000000000000000)
  let escaped : Expr := .str "quote \" slash \\ line \n bell \x07 é 😀"
  let twice : Routine := ⟨[⟨x, none⟩, ⟨.ofString "y", some tenth⟩], [.returnWith (some (.var x))]⟩
  ⟨[.typeBlock ⟨.ofString "p", some x, [(x, none), (.ofString "y", some x)],
      [.sub (.ofString "s") ⟨[], [.returnWith none]⟩, .function (.ofString "f") (some x) twice]⟩,
    .define x (.lambda 0 twice),
    .call x [least, tiny] [],
    .call x [] [(.ofString "y", .map [(escaped, minusZero)])],
    .branch [⟨.bool true, []⟩] none,
    .branch [⟨.nil, [.exit .doLoop]⟩] (some [.breakLoop]),
    .forLoop x least largest none [.attempt [.raise escaped] (some ⟨none, []⟩) none],
    .select (.interpolated [tenth]) [⟨.relational .ge tiny, []⟩, ⟨.otherwise, [.breakpoint]⟩],
    .enum x [⟨.ofString "a", none⟩, ⟨.ofString "b", some (.unary .neg least)⟩],
    .assertion (.comprehension (.var x) x (.range tiny tenth) none) (some escaped)]⟩

/-- The program of the example is read back as it was written. -/
theorem parse?_dump_wideProgram :
    Plain.program wideProgram = true ∧ wideProgram.toJson.nesting ≤ 127 ∧
      Program.parse? wideProgram.dump = some wideProgram := by
  have hplain : Plain.program wideProgram = true := by decide +kernel
  have hnesting : wideProgram.toJson.nesting ≤ 127 := by decide +kernel
  exact ⟨hplain, hnesting, parse?_dump hplain hnesting⟩

end BasicScript
