import BasicScript.Json.Reader
import BasicScript.Proofs.Json.Number

/-!
# JSON documents

A document that is laid out and read again is the same document.  The layout is followed token by
token: `Reads r cs r' rest` says that the reader `r`, given the text `cs`, comes to be the reader
`r'` with the text `rest` still to read.  The fuel of the reader is never the reason to stop, since
each token takes a character off the text.

* `Readable`: texts whose characters are whole, and numbers without zeros at their end.
* `reads_value`: reading a document that stands somewhere in a text.
* `parse?_pretty`: reading a document that is the whole text.
-/

namespace BasicScript.Json

/-- A document that its text determines. -/
inductive Readable : Json → Prop where
  | null : Readable .null
  | bool (b : Bool) : Readable (.bool b)
  | num {n : Numeral} (hn : n.Normal) : Readable (.num n)
  | str (s : String) : Readable (.str (some s))
  | arr {items : List Json} (hitems : ∀ v ∈ items, Readable v) : Readable (.arr items)
  | obj {members : List (JsonText × Json)} (hnames : ∀ m ∈ members, m.1.isSome = true)
    (hmembers : ∀ m ∈ members, Readable m.2) : Readable (.obj members)

/-! ## Texts -/

/-- One character inside quotes is read as this character. -/
theorem scanText_escapeChar (p : PartText) (c : Char) (rest : List Char) :
    scanText p (escapeChar c ++ rest) = scanText (p.push c) rest := by
  unfold escapeChar
  split
  · rfl
  · rfl
  · rfl
  · rfl
  · rfl
  · rfl
  · rfl
  · next hquote hslash _ _ _ _ _ =>
    split
    · next hcontrol =>
      have hunit : ∀ n < 32, hexUnit? '0' '0' (hexChar (n / 16)) (hexChar (n % 16)) = some n := by
        decide
      have hhalf : ∀ n < 32, isLowHalf n = false ∧ isHighHalf n = false := by decide
      obtain ⟨hlow, hhigh⟩ := hhalf c.toNat hcontrol
      simp [scanText, hunit c.toNat hcontrol, PartText.pushUnit, hlow, hhigh]
    · next hplain =>
      rw [List.singleton_append, scanText.eq_def]
      split
      · next heq => cases heq
      · next heq => exact absurd (List.cons.inj heq).1 hquote
      · next heq => exact absurd (List.cons.inj heq).1 hslash
      · next heq => exact absurd (List.cons.inj heq).1 hslash
      · next heq =>
        cases heq
        rw [if_neg hplain]

/-- The characters of a text are read one after the other. -/
theorem scanText_flatMap (done cs rest : List Char) :
    scanText ⟨done, true, none⟩ (cs.flatMap escapeChar ++ '"' :: rest) =
      some (some (String.ofList (done.reverse ++ cs)), rest) := by
  induction cs generalizing done with
  | nil => simp [scanText, PartText.text]
  | cons c cs ih =>
    rw [List.flatMap_cons, List.append_assoc, scanText_escapeChar]
    refine (ih (c :: done)).trans ?_
    simp

/-- The token of a text in quotes. -/
theorem nextToken?_quote (s : String) (rest : List Char) :
    nextToken? (quote s ++ rest) = some (.str (some s), rest) := by
  have hscan := scanText_flatMap [] s.toList rest
  simp only [List.reverse_nil, List.nil_append, String.ofList_toList] at hscan
  have hquote : quote s ++ rest = '"' :: (s.toList.flatMap escapeChar ++ '"' :: rest) := by
    simp [quote]
  rw [hquote]
  simp only [nextToken?, PartText.empty, hscan, Option.map_some]

/-! ## Following a text token by token -/

/-- Given the text `cs`, the reader `r` comes to be `r'` with the text `rest` still to read. -/
def Reads (r : Reader) (cs : List Char) (r' : Reader) (rest : List Char) : Prop :=
  ∀ fuel, cs.length < fuel →
    ∃ fuel', rest.length < fuel' ∧ r.feedText fuel cs = r'.feedText fuel' rest

namespace Reads

variable {r r' r'' : Reader} {cs cs' cs'' rest : List Char}

/-- One part after another. -/
theorem trans (h : Reads r cs r' cs') (h' : Reads r' cs' r'' cs'') : Reads r cs r'' cs'' := by
  intro fuel hfuel
  obtain ⟨fuel', hfuel', heq⟩ := h fuel hfuel
  obtain ⟨fuel'', hfuel'', heq'⟩ := h' fuel' hfuel'
  exact ⟨fuel'', hfuel'', heq.trans heq'⟩

/-- Blanks between tokens are skipped. -/
theorem blanks (r : Reader) {bs : List Char} (hbs : ∀ c ∈ bs, isSpace c = true)
    (rest : List Char) : Reads r (bs ++ rest) r rest := by
  intro fuel hfuel
  rw [List.length_append] at hfuel
  refine ⟨fuel, by omega, ?_⟩
  cases fuel with
  | zero => omega
  | succ fuel => rw [Reader.feedText, Reader.feedText, List.dropWhile_append_of_pos hbs]

/-- The blanks between parts are passed over. -/
theorem newline (r : Reader) (level : Nat) (rest : List Char) :
    Reads r (newline level ++ rest) r rest := by
  apply blanks
  intro c hc
  rcases List.mem_cons.mp hc with rfl | hc
  · rfl
  · rw [List.eq_of_mem_replicate hc]
    rfl

/-- No token starts with a blank. -/
theorem dropWhile_of_nextToken? {t : Token} (h : nextToken? cs = some (t, rest)) :
    ∃ c cs', cs = c :: cs' ∧ cs.dropWhile isSpace = c :: cs' := by
  cases cs with
  | nil => cases h
  | cons c cs =>
    refine ⟨c, cs, rfl, ?_⟩
    cases hc : isSpace c with
    | false => simp [hc]
    | true =>
      simp only [isSpace, Bool.or_eq_true, beq_iff_eq] at hc
      rcases hc with ((rfl | rfl) | rfl) | rfl <;> cases h

/-- One token. -/
theorem token (r' : Reader) (text : List Char) (t : Token)
    (htoken : nextToken? (text ++ rest) = some (t, rest)) (htext : text ≠ [])
    (hfeed : r.feed t = some r') : Reads r (text ++ rest) r' rest := by
  intro fuel hfuel
  have hlength := List.length_pos_iff.mpr htext
  rw [List.length_append] at hfuel
  cases fuel with
  | zero => omega
  | succ fuel =>
    refine ⟨fuel, by omega, ?_⟩
    obtain ⟨c, cs, hcs, hdrop⟩ := dropWhile_of_nextToken? htoken
    rw [Reader.feedText, hdrop]
    dsimp only
    rw [← hcs, htoken]
    simp [hfeed]

end Reads

/-! ## Documents -/

/-- The reader takes the first token of a value inside the containers `os`. -/
def Reader.Awaits (r : Reader) (os : List Open) : Prop :=
  ∀ t, t ≠ .closeArr → r.feed t = Reader.feedValue os t

/-- At the beginning of a value a reader awaits one. -/
theorem Reader.awaits_value (os : List Open) : Reader.Awaits ⟨os, .value⟩ os :=
  fun _ _ => rfl

/-- At the beginning of an array a reader awaits its first item. -/
theorem Reader.awaits_firstItem (os : List Open) :
    Reader.Awaits ⟨os, .firstItem⟩ (.arr [] :: os) := by
  intro t ht
  cases t with
  | closeArr => exact absurd rfl ht
  | _ => rfl

/-- A number ends with the document. -/
theorem ended_nil : Ended [] where
  noDigit := by simp [Double.NoDigit]
  noPoint := by simp
  noScale := by simp

theorem ended_comma (rest : List Char) : Ended (',' :: rest) where
  noDigit := noDigit_cons (by decide) rest
  noPoint := by simp
  noScale := by simp

/-- A number ends before a new line. -/
theorem ended_newline (level : Nat) (rest : List Char) : Ended (newline level ++ rest) where
  noDigit := noDigit_cons (by decide) _
  noPoint := by simp [newline]
  noScale := by simp [newline]

/-- A number has at least one digit. -/
theorem chars_ne_nil {n : Numeral} (hn : n.Normal) : n.chars ≠ [] := by
  intro hnil
  have htoken := nextToken?_chars hn ended_nil
  rw [hnil] at htoken
  cases htoken

/-- A quoted text is read as one token. -/
theorem reads_quote {r r' : Reader} (s : String) (rest : List Char)
    (hfeed : r.feed (.str (some s)) = some r') :
    Reads r (quoteText (some s) ++ rest) r' rest :=
  .token r' _ _ (nextToken?_quote s rest) (by simp [quoteText, quote]) hfeed

/-- What follows an item of an array: more items, or its end. -/
theorem ended_items (level level' : Nat) (vs : List Json) (rest : List Char) :
    Ended (prettyItems level vs ++ (newline level' ++ rest)) := by
  cases vs with
  | nil => exact ended_newline level' rest
  | cons v vs => exact ended_comma _

/-- What follows a member of an object: more members, or its end. -/
theorem ended_members (level level' : Nat) (ms : List (JsonText × Json)) (rest : List Char) :
    Ended (prettyMembers level ms ++ (newline level' ++ rest)) := by
  cases ms with
  | nil => exact ended_newline level' rest
  | cons m ms => exact ended_comma _

/-- A closing bracket on its own line. -/
theorem reads_closeArr (level : Nat) (items : List Json) (os : List Open) (v : Json)
    (rest : List Char) :
    Reads ⟨.arr items :: os, .after v⟩ (newline level ++ ([']'] ++ rest))
      ⟨os, .after (.arr (items.reverse ++ [v]))⟩ rest := by
  refine (Reads.newline _ level _).trans (.token _ [']'] .closeArr rfl (by simp) ?_)
  simp [Reader.feed, Reader.feedAfter]

/-- A closing brace on its own line. -/
theorem reads_closeObj (level : Nat) (members : List (JsonText × Json)) (k : JsonText)
    (os : List Open) (v : Json) (rest : List Char) :
    Reads ⟨.obj members k :: os, .after v⟩ (newline level ++ (['}'] ++ rest))
      ⟨os, .after (.obj (members.reverse ++ [(k, v)]))⟩ rest := by
  refine (Reads.newline _ level _).trans (.token _ ['}'] .closeObj rfl (by simp) ?_)
  simp [Reader.feed, Reader.feedAfter]

/-- A name with its colon. -/
theorem reads_name {r : Reader} {os : List Open} {members : List (JsonText × Json)} (s : String)
    (hfeed : r.feed (.str (some s)) = some ⟨os, .colon members (some s)⟩) (rest : List Char) :
    Reads r (quoteText (some s) ++ ([':', ' '] ++ rest))
      ⟨.obj members (some s) :: os, .value⟩ rest := by
  refine (reads_quote s _ hfeed).trans ?_
  have hcolon : Reads ⟨os, .colon members (some s)⟩ ([':'] ++ ([' '] ++ rest))
      ⟨.obj members (some s) :: os, .value⟩ ([' '] ++ rest) :=
    .token _ [':'] .colon rfl (by simp) rfl
  exact hcolon.trans (.blanks _ (List.forall_mem_singleton.mpr rfl) rest)

mutual

/-- A document that stands where a value is awaited. -/
theorem reads_value : (v : Json) → v.Readable → (level : Nat) → {r : Reader} → {os : List Open} →
    r.Awaits os → {rest : List Char} → Ended rest →
    Reads r (prettyChars level v ++ rest) ⟨os, .after v⟩ rest
  | .null, _, _, _, _, hr, _, _ => .token _ "null".toList .null rfl (by decide) (hr _ nofun)
  | .bool true, _, _, _, _, hr, _, _ =>
    .token _ "true".toList (.bool true) rfl (by decide) (hr _ nofun)
  | .bool false, _, _, _, _, hr, _, _ =>
    .token _ "false".toList (.bool false) rfl (by decide) (hr _ nofun)
  | .num _, .num hn, _, _, _, hr, _, hrest =>
    .token _ _ _ (nextToken?_chars hn hrest) (chars_ne_nil hn) (hr _ nofun)
  | .str _, .str s, _, _, _, hr, rest, _ => reads_quote s rest (hr _ nofun)
  | .arr [], _, _, _, os, hr, rest, _ => by
    have hopen : Reads _ (['['] ++ ([']'] ++ rest)) ⟨os, .firstItem⟩ ([']'] ++ rest) :=
      .token _ ['['] .openArr rfl (by simp) (hr _ nofun)
    exact hopen.trans (.token _ [']'] .closeArr rfl (by simp) rfl)
  | .arr (v :: vs), .arr hitems, level, r, os, hr, rest, _ => by
    have hlayout : prettyChars level (.arr (v :: vs)) ++ rest =
        ['['] ++ (newline (level + 1) ++ (prettyChars (level + 1) v ++
          (prettyItems (level + 1) vs ++ (newline level ++ ([']'] ++ rest))))) := by
      simp [prettyChars]
    rw [hlayout]
    refine (Reads.token ⟨os, .firstItem⟩ ['['] .openArr rfl (by simp) (hr _ nofun)).trans ?_
    refine (Reads.newline _ _ _).trans ?_
    refine (reads_value v (hitems v List.mem_cons_self) (level + 1)
      (Reader.awaits_firstItem os) (ended_items ..)).trans ?_
    exact reads_items vs (fun w hw => hitems w (List.mem_cons_of_mem v hw)) (level + 1) level v []
      os rest
  | .obj [], _, _, _, os, hr, rest, _ => by
    have hopen : Reads _ (['{'] ++ (['}'] ++ rest)) ⟨os, .firstName⟩ (['}'] ++ rest) :=
      .token _ ['{'] .openObj rfl (by simp) (hr _ nofun)
    exact hopen.trans (.token _ ['}'] .closeObj rfl (by simp) rfl)
  | .obj ((k, v) :: ms), .obj hnames hmembers, level, r, os, hr, rest, _ => by
    obtain ⟨s, rfl⟩ := Option.isSome_iff_exists.mp (hnames (k, v) List.mem_cons_self)
    have hlayout : prettyChars level (.obj ((some s, v) :: ms)) ++ rest =
        ['{'] ++ (newline (level + 1) ++ (quoteText (some s) ++ ([':', ' '] ++
          (prettyChars (level + 1) v ++
          (prettyMembers (level + 1) ms ++ (newline level ++ (['}'] ++ rest))))))) := by
      simp [prettyChars]
    rw [hlayout]
    refine (Reads.token ⟨os, .firstName⟩ ['{'] .openObj rfl (by simp) (hr _ nofun)).trans ?_
    refine (Reads.newline _ _ _).trans ?_
    refine (reads_name s rfl _).trans ?_
    refine (reads_value v (hmembers (some s, v) List.mem_cons_self) (level + 1)
      (Reader.awaits_value _) (ended_members ..)).trans ?_
    exact reads_members ms (fun m hm => hnames m (List.mem_cons_of_mem _ hm))
      (fun m hm => hmembers m (List.mem_cons_of_mem _ hm)) (level + 1) level (some s) v [] os rest

/-- The items after the first one, and the end of the array. -/
theorem reads_items : (vs : List Json) → (∀ v ∈ vs, v.Readable) → (level level' : Nat) →
    (v : Json) → (items : List Json) → (os : List Open) → (rest : List Char) →
    Reads ⟨.arr items :: os, .after v⟩
      (prettyItems level vs ++ (newline level' ++ ([']'] ++ rest)))
      ⟨os, .after (.arr (items.reverse ++ v :: vs))⟩ rest
  | [], _, _, level', v, items, os, rest => reads_closeArr level' items os v rest
  | w :: ws, hvs, level, level', v, items, os, rest => by
    have hlayout : prettyItems level (w :: ws) ++ (newline level' ++ ([']'] ++ rest)) =
        [','] ++ (newline level ++ (prettyChars level w ++
          (prettyItems level ws ++ (newline level' ++ ([']'] ++ rest))))) := by
      simp [prettyItems]
    have hitems : items.reverse ++ v :: w :: ws = (v :: items).reverse ++ w :: ws := by simp
    rw [hlayout, hitems]
    refine (Reads.token ⟨.arr (v :: items) :: os, .value⟩ [','] .comma rfl (by simp) rfl).trans ?_
    refine (Reads.newline _ _ _).trans ?_
    refine (reads_value w (hvs w List.mem_cons_self) level
      (Reader.awaits_value _) (ended_items ..)).trans ?_
    exact reads_items ws (fun x hx => hvs x (List.mem_cons_of_mem w hx)) level level' w (v :: items)
      os rest

/-- The members after the first one, and the end of the object. -/
theorem reads_members : (ms : List (JsonText × Json)) → (∀ m ∈ ms, m.1.isSome = true) →
    (∀ m ∈ ms, m.2.Readable) → (level level' : Nat) →
    (k : JsonText) → (v : Json) → (members : List (JsonText × Json)) → (os : List Open) →
    (rest : List Char) →
    Reads ⟨.obj members k :: os, .after v⟩
      (prettyMembers level ms ++ (newline level' ++ (['}'] ++ rest)))
      ⟨os, .after (.obj (members.reverse ++ (k, v) :: ms))⟩ rest
  | [], _, _, _, level', k, v, members, os, rest => reads_closeObj level' members k os v rest
  | (k', w) :: ms, hnames, hmembers, level, level', k, v, members, os, rest => by
    obtain ⟨s, rfl⟩ := Option.isSome_iff_exists.mp (hnames (k', w) List.mem_cons_self)
    have hlayout : prettyMembers level ((some s, w) :: ms) ++ (newline level' ++ (['}'] ++ rest)) =
        [','] ++ (newline level ++ (quoteText (some s) ++ ([':', ' '] ++ (prettyChars level w ++
          (prettyMembers level ms ++ (newline level' ++ (['}'] ++ rest))))))) := by
      simp [prettyMembers]
    have hmembers' : members.reverse ++ (k, v) :: (some s, w) :: ms =
        ((k, v) :: members).reverse ++ (some s, w) :: ms := by simp
    rw [hlayout, hmembers']
    refine (Reads.token ⟨os, .name ((k, v) :: members)⟩ [','] .comma rfl (by simp) rfl).trans ?_
    refine (Reads.newline _ _ _).trans ?_
    refine (reads_name s rfl _).trans ?_
    refine (reads_value w (hmembers (some s, w) List.mem_cons_self) level
      (Reader.awaits_value _) (ended_members ..)).trans ?_
    exact reads_members ms (fun m hm => hnames m (List.mem_cons_of_mem _ hm))
      (fun m hm => hmembers m (List.mem_cons_of_mem _ hm)) level level' (some s) w
      ((k, v) :: members) os rest

end

/-- A document that is laid out and read again is the same document. -/
theorem parse?_pretty {v : Json} (hv : v.Readable) : parse? v.pretty = some v := by
  obtain ⟨fuel, hfuel, hread⟩ := reads_value v hv 0 (Reader.awaits_value []) ended_nil
    ((prettyChars 0 v ++ []).length + 1) (Nat.lt_succ_self _)
  rw [List.append_nil] at hread
  simp only [parse?, pretty, String.toList_ofList, parseChars?, Reader.start, hread]
  cases fuel with
  | zero => cases hfuel
  | succ fuel => rfl

end BasicScript.Json
