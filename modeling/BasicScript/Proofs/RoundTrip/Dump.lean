import BasicScript.Proofs.RoundTrip.Decoded
import BasicScript.Proofs.RoundTrip.Depth

/-!
# Loading what was dumped

A program that was loaded is dumped in one form, whatever form its text had.  The dump can be loaded
again unless it nests too many arrays and objects, and it can do so although the text did not: a
list of arguments, fields or methods that the text leaves out is an empty list in the dump, which is
one array more where it lies deepest.  Named arguments are left out again.

* `Program.ofJsonWithin?`: decoding with some number of arrays and objects that may be open.
* `ofJsonWithin?_toJson`: the document of a plain program decodes if and only if it is not nested
  deeper.
* `dump_reloads_unless_nested_too_deep`: when a dump can be loaded again, and what that means for
  the text.
* `dump_of_deepest_call_not_reloaded`: a text that can be loaded and whose dump cannot.
-/

namespace BasicScript

/-! ## Decoding within some depth -/

/-- The program of a document, if some number of arrays and objects may be open at once. -/
def Program.ofJsonWithin? : Nat → Json → Option Program
  | depth + 1, j => do
    match ← Decoder.parts? ["statements"] j with
    | [some statements] => return ⟨← Decoder.stmts? depth statements⟩
    | _ => none
  | _, _ => none

/-- A program is decoded with the full depth. -/
theorem ofJsonWithin?_maxDepth (j : Json) :
    Program.ofJsonWithin? Decoder.maxDepth j = Program.ofJson? j :=
  rfl

/-- A program that was decoded is plain, and its document is filled no deeper than was allowed. -/
theorem fits_ofJsonWithin? (depth : Nat) (j : Json) :
    Yields (fun p => Fits depth (Plain.program p) p.toJson) (Program.ofJsonWithin? depth j) := by
  cases depth with
  | zero => exact .none
  | succ depth =>
    unfold Program.ofJsonWithin?
    refine .bind .any fun ps _ => ?_
    split
    · exact .bind ((decodersFit depth).stmts _) fun ss hss =>
        .some (.parts hss.plain ⟨hss.filling, trivial⟩)
    · exact .none

/-- A program is decoded only if all that its document nests may be opened. -/
theorem opens_program (p : Program) : Opens Program.ofJsonWithin? p.toJson :=
  .parts rfl fun depth => .bindParts (by decide) rfl <|
    .bind (opens_stmts p.statements depth) fun _ hss => .some ⟨hss, trivial⟩

/-- The document of a plain program decodes to it. -/
theorem decodes_program {p : Program} (hplain : Plain.program p = true) :
    Decodes Program.ofJsonWithin? p.toJson p :=
  .parts fun depth ⟨hss, _⟩ => bind_parts (by decide) rfl <|
    bind_some (decodes_stmts p.statements hplain depth hss) rfl

/-- The document of a plain program decodes if and only if it is not nested deeper than is
allowed. -/
theorem ofJsonWithin?_toJson {p : Program} (hplain : Plain.program p = true) (depth : Nat) :
    Program.ofJsonWithin? depth p.toJson = if p.toJson.nesting ≤ depth then some p else none := by
  split
  · next hnesting => exact decodes_program hplain depth hnesting
  · next hnesting =>
    rw [Option.eq_none_iff_forall_ne_some]
    intro q hq
    exact hnesting (opens_program p depth q hq)

/-! ## Dumps -/

/-- **A plain program is read back if its document is nested at most 127 deep**, and not
otherwise. -/
theorem parse?_dump_eq {p : Program} (hplain : Plain.program p = true) :
    Program.parse? p.dump = if p.toJson.nesting ≤ 127 then some p else none := by
  have hread : Json.parse? p.dump = some p.toJson := Json.parse?_pretty (readable_program p)
  rw [Program.parse?, hread]
  exact ofJsonWithin?_toJson hplain Decoder.maxDepth

/-- **Dumps can be loaded again unless they are nested too deep.**  If a text gives a program, the
dump of this program gives the program back, or nothing if it nests more than 127 arrays and
objects.  That cannot happen but by an empty list at the level 128: all that holds anything lies
within 127 levels.  It does not happen if one level less would do for the text. -/
theorem dump_reloads_unless_nested_too_deep {source : String} {p : Program}
    (hparse : Program.parse? source = some p) :
    Program.parse? p.dump = (if p.toJson.nesting ≤ 127 then some p else none) ∧
      p.toJson.filling ≤ 127 ∧ p.toJson.nesting ≤ 128 ∧
      ∀ j, Json.parse? source = some j → Program.ofJsonWithin? 126 j = some p →
        Program.parse? p.dump = some p := by
  obtain ⟨j, -, hj⟩ := Option.bind_eq_some_iff.mp hparse
  have hfits : Fits 127 (Plain.program p) p.toJson := fits_ofJsonWithin? 127 j p hj
  have hdump := parse?_dump_eq hfits.plain
  have hnesting := Json.nesting_le_filling p.toJson
  refine ⟨hdump, hfits.filling, hnesting.trans (Nat.succ_le_succ hfits.filling), ?_⟩
  intro j _ hwithin
  have hless : Fits 126 (Plain.program p) p.toJson := fits_ofJsonWithin? 126 j p hwithin
  rw [hdump, if_pos (hnesting.trans (Nat.succ_le_succ hless.filling))]

/-! ## Arguments that are left out -/

/-- A call inside a number of TYPEOFs. -/
def typeOfs : Nat → Expr
  | 0 => .call (.ofString "F") [] []
  | n + 1 => .typeOf (typeOfs n)

/-- A program that prints a call inside a number of TYPEOFs. -/
def printTypeOfs (n : Nat) : Program :=
  ⟨[.print (typeOfs n)]⟩

/-- A document for the expression that leaves the arguments out. -/
def bareTypeOfs : Nat → Json
  | 0 => Encoder.node "Call" (Encoder.parts [("callee", some (.text "F"))])
  | n + 1 => Encoder.node "TypeOf" (bareTypeOfs n)

/-- A document for the program that leaves the arguments out. -/
def barePrintTypeOfs (n : Nat) : Json :=
  Encoder.parts [("statements", some (.arr [Encoder.node "Print" (bareTypeOfs n)]))]

/-- The document without empty arguments is determined by its text. -/
theorem readable_barePrintTypeOfs (n : Nat) : (barePrintTypeOfs n).Readable := by
  have hexpr : (bareTypeOfs n).Readable := by
    induction n with
    | zero => exact .nodeParts ⟨.text "F", trivial⟩
    | succ n ih => exact .node ih
  exact .parts ⟨.cons (.node hexpr) .nil, trivial⟩

/-- The document opens five arrays and objects around and inside the TYPEOFs. -/
theorem ofJsonWithin?_barePrintTypeOfs (depth n : Nat) :
    Program.ofJsonWithin? (depth + 5 + n) (barePrintTypeOfs n) = some (printTypeOfs n) := by
  have hexpr : Decoder.expr? (depth + 2 + n) (bareTypeOfs n) = some (typeOfs n) := by
    induction n with
    | zero => rfl
    | succ n ih => exact congrArg (Option.map Expr.typeOf) ih
  have hstmts : Decoder.stmts? (depth + 2 + n + 2)
      (.arr [Encoder.node "Print" (bareTypeOfs n)]) = some [.print (typeOfs n)] := by
    change (Option.map Stmt.print (Decoder.expr? (depth + 2 + n) (bareTypeOfs n)) >>= fun s =>
      some [s]) = _
    rw [hexpr]
    rfl
  have hdepth : depth + 5 + n = depth + 2 + n + 3 := by omega
  rw [hdepth]
  exact bind_parts (by decide) rfl (bind_some hstmts rfl)

/-- In the document of the program there is the empty list of arguments as well. -/
theorem nesting_printTypeOfs (n : Nat) : (printTypeOfs n).toJson.nesting = n + 6 := by
  have hexpr : (Encoder.expr (typeOfs n)).nesting = n + 3 := by
    induction n with
    | zero => rfl
    | succ n ih => exact (nesting_node "TypeOf" _).trans (congrArg Nat.succ ih)
  have hprint : (Encoder.stmt (.print (typeOfs n))).nesting = n + 4 :=
    (nesting_node "Print" _).trans (congrArg Nat.succ hexpr)
  simp [printTypeOfs, Program.toJson, Encoder.parts, Encoder.stmts, Json.object, Json.nesting,
    Json.nestingItems, Json.nestingMembers, hprint]

/-- The program of that document is plain. -/
theorem plain_printTypeOfs (n : Nat) : Plain.program (printTypeOfs n) = true := by
  have hexpr : Plain.expr (typeOfs n) = true := by
    induction n with
    | zero => rfl
    | succ n ih => exact ih
  exact plain_and hexpr rfl

/-- The document without empty arguments is read, and gives the program. -/
theorem parse?_barePrintTypeOfs (depth : Nat) {n : Nat} (h : depth + 5 + n = Decoder.maxDepth) :
    Json.parse? (barePrintTypeOfs n).pretty = some (barePrintTypeOfs n) ∧
      Program.parse? (barePrintTypeOfs n).pretty = some (printTypeOfs n) := by
  have hread : Json.parse? (barePrintTypeOfs n).pretty = some (barePrintTypeOfs n) :=
    Json.parse?_pretty (readable_barePrintTypeOfs n)
  have hdecode := ofJsonWithin?_barePrintTypeOfs depth n
  rw [h, ofJsonWithin?_maxDepth] at hdecode
  refine ⟨hread, ?_⟩
  rw [Program.parse?, hread]
  exact hdecode

/-- With 121 TYPEOFs the text nests 126 arrays and objects, and the dump 127. -/
theorem dump_reloads_one_level_less :
    Program.parse? (barePrintTypeOfs 121).pretty = some (printTypeOfs 121) ∧
      Program.parse? (printTypeOfs 121).dump = some (printTypeOfs 121) := by
  obtain ⟨hread, hparse⟩ := parse?_barePrintTypeOfs 1 (show 1 + 5 + 121 = Decoder.maxDepth from rfl)
  obtain ⟨-, -, -, hless⟩ := dump_reloads_unless_nested_too_deep hparse
  exact ⟨hparse, hless _ hread (ofJsonWithin?_barePrintTypeOfs 0 121)⟩

/-- With 122 TYPEOFs the text nests 127 arrays and objects and gives a program, and the dump of this
program nests 128 and gives none. -/
theorem dump_of_deepest_call_not_reloaded :
    Program.parse? (barePrintTypeOfs 122).pretty = some (printTypeOfs 122) ∧
      Program.parse? (printTypeOfs 122).dump = none := by
  obtain ⟨-, hparse⟩ := parse?_barePrintTypeOfs 0 (show 0 + 5 + 122 = Decoder.maxDepth from rfl)
  have hdump := parse?_dump_eq (plain_printTypeOfs 122)
  rw [nesting_printTypeOfs] at hdump
  exact ⟨hparse, hdump⟩

end BasicScript
