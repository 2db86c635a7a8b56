import BasicScript.Proofs.Json.Document
import BasicScript.Proofs.UpperCase
import BasicScript.Syntax.Decoder
import BasicScript.Syntax.Encoder

/-!
# Nodes of a program tree as documents

What the encoder and the decoder of program trees have in common for all kinds of nodes.  A node is
an object with one member; the parts of a node are an object too, from which the missing parts are
left out, and the decoder finds each part again under its name.

* `Json.nesting`: how deep the arrays and objects of a document are nested.
* `Decodes decode j a`: a decoder that may open as many arrays and objects as `j` nests gives `a`.
* `bind_parts`: decoding the parts of a node.
* `Decodes.node`, `Decodes.parts`, `Decodes.nodeParts`, `Decodes.nil` and `Decodes.cons`: nodes and
  lists, with the depth that each of them takes.
-/

namespace BasicScript

/-! ## How deep a document is nested -/

namespace Json

mutual

/-- The number of arrays and objects that are open at once in a document. -/
def nesting : Json → Nat
  | .null | .bool _ | .num _ | .str _ => 0
  | .arr items => nestingItems items + 1
  | .obj members => nestingMembers members + 1

/-- The nesting of the deepest item. -/
def nestingItems : List Json → Nat
  | [] => 0
  | v :: vs => max v.nesting (nestingItems vs)

/-- The nesting of the deepest member. -/
def nestingMembers : List (JsonText × Json) → Nat
  | [] => 0
  | (_, v) :: ms => max v.nesting (nestingMembers ms)

end

end Json

/-! ## Parts of a node -/

/-- A part has some property, unless it is missing. -/
def Part (P : Json → Prop) : Option Json → Prop
  | none => True
  | some j => P j

/-- All parts of a node that are not missing have some property. -/
def Parts (P : Json → Prop) : List (String × Option Json) → Prop
  | [] => True
  | (_, v) :: ps => Part P v ∧ Parts P ps

/-- The members of a node are its parts that are not missing. -/
theorem Parts.of_mem {P : Json → Prop} {ps : List (String × Option Json)} (h : Parts P ps)
    {member : String × Json}
    (hmember : member ∈ ps.filterMap fun (name, v) => v.map (name, ·)) : P member.2 := by
  obtain ⟨⟨name, v⟩, hmem, hv⟩ := List.mem_filterMap.mp hmember
  obtain ⟨j, rfl, rfl⟩ := Option.map_eq_some_iff.mp hv
  clear hmember hv
  induction ps with
  | nil => cases hmem
  | cons q ps ih =>
    rcases List.mem_cons.mp hmem with rfl | hmem
    · exact h.1
    · exact ih h.2 hmem

namespace Json.Readable

/-- A text can be told from what is written for it. -/
theorem text (s : String) : (Json.text s).Readable :=
  .str s

/-- An integer can be told from what is written for it. -/
theorem int (n : Int) : (Json.int n).Readable :=
  .num trivial

/-- A node of some kind is determined by its text if what it holds is. -/
theorem node {kind : String} {j : Json} (h : j.Readable) : (Encoder.node kind j).Readable := by
  apply Json.Readable.obj
  all_goals
    intro m hm
    obtain rfl := List.mem_singleton.mp hm
  · rfl
  · exact h

/-- A node of parts is determined by its text if its parts are. -/
theorem parts {ps : List (String × Option Json)} (h : Parts Readable ps) :
    (Encoder.parts ps).Readable := by
  apply Json.Readable.obj
  · intro m hm
    obtain ⟨p, -, rfl⟩ := List.mem_map.mp hm
    rfl
  · intro m hm
    obtain ⟨p, hp, rfl⟩ := List.mem_map.mp hm
    exact h.of_mem hp

/-- A node of some kind with parts is determined by its text if its parts are. -/
theorem nodeParts {kind : String} {ps : List (String × Option Json)} (h : Parts Readable ps) :
    (Encoder.node kind (Encoder.parts ps)).Readable :=
  .node (.parts h)

theorem cons {v : Json} {vs : List Json} (h : v.Readable) (hs : (Json.arr vs).Readable) :
    (Json.arr (v :: vs)).Readable := by
  cases hs with
  | arr hs =>
    apply Json.Readable.arr
    intro w hw
    rcases List.mem_cons.mp hw with rfl | hw
    · exact h
    · exact hs w hw

theorem nil : (Json.arr []).Readable :=
  .arr (by simp)

end Json.Readable

/-- A node opens one object. -/
theorem nesting_node (kind : String) (j : Json) :
    (Encoder.node kind j).nesting = j.nesting + 1 := by
  simp [Encoder.node, Json.object, Json.nesting, Json.nestingMembers]

/-- The parts of a node fit into the depth inside the object that holds them. -/
theorem parts_of_nesting_le {ps : List (String × Option Json)} {depth : Nat}
    (h : (Encoder.parts ps).nesting ≤ depth + 1) : Parts (·.nesting ≤ depth) ps := by
  induction ps with
  | nil => trivial
  | cons p ps ih =>
    obtain ⟨name, v⟩ := p
    cases v with
    | none => exact ⟨trivial, ih h⟩
    | some j =>
      simp only [Encoder.parts, Json.object, List.filterMap_cons, Option.map_some, List.map_cons,
        Json.nesting, Json.nestingMembers] at h ih
      exact ⟨show j.nesting ≤ depth by omega, ih (by omega)⟩

/-- The parts of a node are an object, so at least that one is open. -/
theorem nesting_parts_pos (ps : List (String × Option Json)) : 0 < (Encoder.parts ps).nesting := by
  simp [Encoder.parts, Json.object, Json.nesting]

/-! ## Finding the parts again -/

namespace Decoder

/-- The members of the object that holds some parts. -/
def membersOf (ps : List (String × Option Json)) : List (JsonText × Json) :=
  (ps.filterMap fun (name, v) => v.map (name, ·)).map fun (k, v) => (some k, v)

/-- A missing part is no member. -/
theorem membersOf_cons_none (name : String) (ps : List (String × Option Json)) :
    membersOf ((name, none) :: ps) = membersOf ps :=
  rfl

/-- A part that is there is a member under its name. -/
theorem membersOf_cons_some (name : String) (j : Json) (ps : List (String × Option Json)) :
    membersOf ((name, some j) :: ps) = (some name, j) :: membersOf ps :=
  rfl

/-- No member has a name that no part has. -/
theorem filter_membersOf_of_not_mem {ps : List (String × Option Json)} {name : String}
    (h : name ∉ ps.map Prod.fst) : (membersOf ps).filter (·.1 == some name) = [] := by
  induction ps with
  | nil => rfl
  | cons q ps ih =>
    obtain ⟨name', v⟩ := q
    have hne : name' ≠ name := fun heq => h (heq ▸ List.mem_cons_self)
    have hrest := ih fun hmem => h (List.mem_cons_of_mem _ hmem)
    cases v with
    | none => rwa [membersOf_cons_none]
    | some j => rw [membersOf_cons_some, List.filter_cons_of_neg (by simpa using hne), hrest]

/-- Different parts have different names, so a name finds its own part alone. -/
theorem filter_membersOf {ps : List (String × Option Json)} (hnames : (ps.map Prod.fst).Nodup)
    {p : String × Option Json} (hp : p ∈ ps) :
    (membersOf ps).filter (·.1 == some p.1) = (p.2.map (some p.1, ·)).toList := by
  induction ps with
  | nil => cases hp
  | cons q ps ih =>
    obtain ⟨name, v⟩ := q
    obtain ⟨hfirst, hrest⟩ := List.nodup_cons.mp hnames
    rcases List.mem_cons.mp hp with rfl | hmem
    · have hnone := filter_membersOf_of_not_mem hfirst
      cases v with
      | none => rwa [membersOf_cons_none]
      | some j => rw [membersOf_cons_some, List.filter_cons_of_pos (by simp), hnone]; rfl
    · have hne : name ≠ p.1 := by
        rintro rfl
        exact hfirst (show p.1 ∈ ps.map Prod.fst from List.mem_map_of_mem hmem)
      cases v with
      | none => rw [membersOf_cons_none, ih hrest hmem]
      | some j =>
        rw [membersOf_cons_some, List.filter_cons_of_neg (by simpa using hne), ih hrest hmem]

/-- A part is found under its name, or found missing. -/
theorem member?_membersOf {ps : List (String × Option Json)} (hnames : (ps.map Prod.fst).Nodup)
    {p : String × Option Json} (hp : p ∈ ps) : member? (membersOf ps) p.1 = some p.2 := by
  rw [member?, filter_membersOf hnames hp]
  cases p.2 with
  | none => rfl
  | some j => rfl

/-- If every part is found under its name, all of them are. -/
theorem mapM_map_fst {ps : List (String × Option Json)} {f : String → Option (Option Json)}
    (h : ∀ p ∈ ps, f p.1 = some p.2) : (ps.map Prod.fst).mapM f = some (ps.map Prod.snd) := by
  induction ps with
  | nil => rfl
  | cons p ps ih =>
    have hrest := ih fun q hq => h q (List.mem_cons_of_mem p hq)
    simp [h p List.mem_cons_self, hrest]

/-- The decoder finds the parts that the encoder wrote. -/
theorem parts?_parts {ps : List (String × Option Json)} (hnames : (ps.map Prod.fst).Nodup) :
    parts? (ps.map Prod.fst) (Encoder.parts ps) = some (ps.map Prod.snd) := by
  have hall : (membersOf ps).all (·.1.isSome) = true := by
    rw [List.all_eq_true]
    intro m hm
    obtain ⟨p, -, rfl⟩ := List.mem_map.mp hm
    rfl
  change (if (membersOf ps).all (·.1.isSome) then (ps.map Prod.fst).mapM (member? (membersOf ps))
    else none) = _
  rw [if_pos hall]
  exact mapM_map_fst fun p hp => member?_membersOf hnames hp

end Decoder

/-- Decoding a node by its parts. -/
theorem bind_parts {α : Type} {names : List String} {ps : List (String × Option Json)}
    {k : List (Option Json) → Option α} {a : α} (hnames : names.Nodup)
    (hps : ps.map Prod.fst = names) (hk : k (ps.map Prod.snd) = some a) :
    (Decoder.parts? names (Encoder.parts ps) >>= k) = some a := by
  subst hps
  rw [Decoder.parts?_parts hnames]
  exact hk

/-- One step of decoding after another. -/
theorem bind_some {α β : Type} {x : Option α} {a : α} {k : α → Option β} {b : β} (hx : x = some a)
    (hk : k a = some b) : (x >>= k) = some b := by
  rw [hx]
  exact hk

/-! ## Decoders and depth -/

/-- A decoder that may open as many arrays and objects as the document nests gives `a`. -/
def Decodes {α : Type} (decode : Nat → Json → Option α) (j : Json) (a : α) : Prop :=
  ∀ depth, j.nesting ≤ depth → decode depth j = some a

namespace Decodes

variable {α β : Type} {decode : Nat → Json → Option α} {j : Json} {a : α}

/-- A node takes one level. -/
theorem node {kind : String}
    (h : ∀ depth, j.nesting ≤ depth → decode (depth + 1) (Encoder.node kind j) = some a) :
    Decodes decode (Encoder.node kind j) a := by
  intro depth hdepth
  rw [nesting_node] at hdepth
  obtain ⟨depth, rfl⟩ := Nat.exists_eq_add_of_le' (Nat.lt_of_lt_of_le (Nat.succ_pos _) hdepth)
  exact h depth (by omega)

/-- The parts of a node take one level. -/
theorem parts {ps : List (String × Option Json)}
    (h : ∀ depth, Parts (·.nesting ≤ depth) ps → decode (depth + 1) (Encoder.parts ps) = some a) :
    Decodes decode (Encoder.parts ps) a := by
  intro depth hdepth
  obtain ⟨depth, rfl⟩ := Nat.exists_eq_add_of_le' (Nat.lt_of_lt_of_le (nesting_parts_pos ps) hdepth)
  exact h depth (parts_of_nesting_le hdepth)

/-- A node with several parts takes two levels. -/
theorem nodeParts {kind : String} {ps : List (String × Option Json)}
    (h : ∀ depth, Parts (·.nesting ≤ depth) ps →
      decode (depth + 2) (Encoder.node kind (Encoder.parts ps)) = some a) :
    Decodes decode (Encoder.node kind (Encoder.parts ps)) a := by
  apply node
  intro depth hdepth
  obtain ⟨depth, rfl⟩ := Nat.exists_eq_add_of_le' (Nat.lt_of_lt_of_le (nesting_parts_pos ps) hdepth)
  exact h depth (parts_of_nesting_le hdepth)

variable {decodes : Nat → Json → Option (List α)}

/-- An array takes one level. -/
theorem nil
    (hdecodes : ∀ depth items, decodes (depth + 1) (.arr items) = items.mapM (decode depth)) :
    Decodes decodes (.arr []) [] := by
  intro depth hdepth
  obtain ⟨depth, rfl⟩ := Nat.exists_eq_add_of_le' (Nat.lt_of_lt_of_le (Nat.succ_pos _) hdepth)
  rw [hdecodes]
  rfl

/-- An array with one item more. -/
theorem cons {js : List Json} {as : List α}
    (hdecodes : ∀ depth items, decodes (depth + 1) (.arr items) = items.mapM (decode depth))
    (h : Decodes decode j a) (hs : Decodes decodes (.arr js) as) :
    Decodes decodes (.arr (j :: js)) (a :: as) := by
  intro depth hdepth
  simp only [Json.nesting, Json.nestingItems] at hdepth
  obtain ⟨depth, rfl⟩ := Nat.exists_eq_add_of_le' (Nat.lt_of_lt_of_le (Nat.succ_pos _) hdepth)
  have hfirst := h depth (by omega)
  have hrest := hs (depth + 1) (by simp only [Json.nesting]; omega)
  rw [hdecodes] at hrest ⊢
  simp [hfirst, hrest]

end Decodes

/-! ## Words, names and numbers -/

namespace Decoder

/-- A name is read as it was written. -/
theorem ident?_ident (i : Ident) : ident? (Encoder.ident i) = some i :=
  congrArg some (Ident.ofString_name i)

/-- A word is read as what it stands for. -/
theorem word?_text {α : Type} {find : String → Option α} {w : String} {a : α}
    (h : find w = some a) (depth : Nat) : word? find depth (.text w) = some a := by
  cases depth <;> exact h

/-- An integer of 64 bits is read as it was written. -/
theorem int?_int (n : Int64) : int? (.int n.toInt) = some n := by
  have hzero : (decide (n.toInt < 0) && n.toInt.natAbs == 0) = false := by
    rw [Bool.and_eq_false_iff, decide_eq_false_iff_not, beq_eq_false_iff_ne]
    omega
  have hvalue : (if decide (n.toInt < 0) then -(n.toInt.natAbs : Int) else n.toInt.natAbs) =
      n.toInt := by
    simp only [decide_eq_true_eq]
    split <;> omega
  simp only [int?, Json.int, Numeral.ofInt, Numeral.toInt64?, hzero, Bool.false_eq_true, if_false,
    Word.ofSign?, hvalue, Word.ofInt?_toInt]

/-- A finite double is read as it was written. -/
theorem float?_float {x : Float} (hx : Double.isFinite x = true) :
    float? (Encoder.float x) = some x := by
  obtain ⟨negative, d, hnumeral, -, hvalue⟩ := Numeral.ofFloat?_spec hx
  simp only [Encoder.float, hnumeral, float?, hvalue]

/-- The target of an EXIT is read by its keyword. -/
theorem exitTarget?_text (t : ExitTarget) : exitTarget? (.text t.keyword) = some t := by
  cases t <;> rfl

/-- A name that may be missing is read as it was written. -/
theorem optional?_ident (i : Option Ident) :
    optional? ident? (i.map Encoder.ident) = some i := by
  cases i with
  | none => rfl
  | some i => exact congrArg (Option.map some) (ident?_ident i)

/-- An optional part that is present. -/
theorem optional?_some {α : Type} {decode : Json → Option α} {j : Json} {a : α} (hj : j ≠ .null)
    (h : decode j = some a) : optional? decode (some j) = some (some a) := by
  have hpresent : optional? decode (some j) = (decode j).map some := by
    cases j with
    | null => exact absurd rfl hj
    | _ => rfl
  rw [hpresent, h]
  rfl

end Decoder

/-- A double that is not finite becomes `null`; every other one has a numeral in normal form. -/
theorem readable_float (x : Float) : (Encoder.float x).Readable := by
  unfold Encoder.float
  cases hx : Double.isFinite x with
  | true =>
    obtain ⟨negative, d, hnumeral, hnormal, -⟩ := Numeral.ofFloat?_spec hx
    rw [hnumeral]
    exact .num hnormal
  | false =>
    unfold Double.isFinite at hx
    unfold Numeral.ofFloat?
    cases hview : Double.view x with
    | nan => exact .null
    | infinite negative => exact .null
    | finite negative m e => simp [hview] at hx

/-- The document of a list of names is determined by its text. -/
theorem readable_idents (is : List Ident) : (Encoder.idents is).Readable := by
  induction is with
  | nil => exact .nil
  | cons i is ih => exact .cons (.text i.name) ih

/-- The document of a list of names decodes to the list. -/
theorem decodes_idents (is : List Ident) : Decodes Decoder.idents? (Encoder.idents is) is := by
  induction is with
  | nil =>
    have hitems : ∀ depth items,
        Decoder.idents? (depth + 1) (.arr items) = items.mapM Decoder.ident? := fun _ _ => rfl
    exact .nil hitems
  | cons i is ih => exact .cons (fun _ _ => rfl) (fun _ _ => Decoder.ident?_ident i) ih

/-- The document of a name that may be missing is determined by its text. -/
theorem readable_part_ident (i : Option Ident) : Part Json.Readable (i.map Encoder.ident) := by
  cases i with
  | none => trivial
  | some i => exact .text i.name

/-- The document of the fields of a type is determined by its text. -/
theorem readable_typeFields (fs : List (Ident × Option Ident)) :
    (Encoder.typeFields fs).Readable := by
  induction fs with
  | nil => exact .nil
  | cons f fs ih =>
    exact .cons (.parts ⟨.text f.1.name, readable_part_ident f.2, trivial⟩) ih

/-- The document of the fields of a type decodes to them. -/
theorem decodes_typeFields (fs : List (Ident × Option Ident)) :
    Decodes (Decoder.list? Decoder.typeField?) (Encoder.typeFields fs) fs := by
  induction fs with
  | nil => exact .nil fun _ _ => rfl
  | cons f fs ih =>
    refine .cons (fun _ _ => rfl) (.parts fun depth _ => ?_) ih
    exact bind_parts (by decide) rfl (bind_some (Decoder.ident?_ident f.1)
      (bind_some (Decoder.optional?_ident f.2) rfl))

end BasicScript
