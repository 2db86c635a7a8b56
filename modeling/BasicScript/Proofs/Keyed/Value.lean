import BasicScript.Machine.Statement
import BasicScript.Proofs.UpperCase

/-!
# The keys in a value

A value may hold maps inside arrays inside maps.  `Value.Keyed` says of all of these maps at once
that their keys satisfy some condition.  The condition is a parameter; all that is asked of it is
that it is true of every key in its normal form.  Then it is kept up by everything that the language
does with values: reading and writing below a value, building maps, arrays and objects.

* `Table.Keyed` is the same of a table of fields.
* `Value.keyed_setBelow`, `Value.writeAt_keyed` and `Value.keyed_reshape`: what an assignment yields.
* `Value.keyed_boundMethod`, `keyed_construct`, `Failure.keyed_toValue` and their like: the maps that
  the language builds by itself.
-/

namespace BasicScript

variable {α β : Type} {K : String → Prop}

/-- Every key in a value, however deep inside it, satisfies a condition. -/
inductive Value.Keyed (K : String → Prop) : Value → Prop where
  | nil : Keyed K .nil
  | bool (b : Bool) : Keyed K (.bool b)
  | int (n : Int64) : Keyed K (.int n)
  | float (x : Float) : Keyed K (.float x)
  | str (s : String) : Keyed K (.str s)
  | array {items : List Value} (each : ∀ v ∈ items, Keyed K v) : Keyed K (.array items)
  | map {fields : List (String × Value)} (keys : ∀ e ∈ fields, K e.1)
    (values : ∀ e ∈ fields, Keyed K e.2) : Keyed K (.map fields)

/-- Every key in a list of values satisfies a condition. -/
abbrev Value.AllKeyed (K : String → Prop) (vs : List Value) : Prop :=
  ∀ v ∈ vs, v.Keyed K

/-- Every key of a table and in the values of the table satisfies a condition. -/
def Table.Keyed (K : String → Prop) (t : Table Value) : Prop :=
  ∀ e ∈ t, K e.1 ∧ e.2.Keyed K

namespace Value

/-- The keys in an array are those in its items. -/
theorem keyed_array {items : List Value} : (array items).Keyed K ↔ AllKeyed K items := by
  constructor
  · intro h
    cases h with
    | array each => exact each
  · exact .array

/-- The keys in a map are those of its table and those in the values there. -/
theorem keyed_map {fields : Table Value} : (map fields).Keyed K ↔ Table.Keyed K fields := by
  constructor
  · intro h
    cases h with
    | map keys values => exact fun e he => ⟨keys e he, values e he⟩
  · intro h
    exact .map (fun e he => (h e he).1) fun e he => (h e he).2

/-- A condition that is true of all texts is true of the keys in every value. -/
theorem keyed_of_all (h : ∀ k, K k) : ∀ v : Value, v.Keyed K
  | .nil => .nil
  | .bool b => .bool b
  | .int n => .int n
  | .float x => .float x
  | .str s => .str s
  | .array items => .array fun v _ => keyed_of_all h v
  | .map fields => .map (fun e _ => h e.1) fun e _ => keyed_of_all h e.2
decreasing_by
  · have hmem := List.sizeOf_lt_of_mem ‹_ ∈ items›
    simp only [Value.array.sizeOf_spec]
    omega
  · have hmem := List.sizeOf_lt_of_mem ‹e ∈ fields›
    have hpair : sizeOf e.2 < sizeOf e := by
      rw [Prod.mk.sizeOf_spec]
      omega
    simp only [Value.map.sizeOf_spec]
    omega

/-- A keyed value in front of keyed values. -/
theorem AllKeyed.cons {v : Value} {vs : List Value} (hv : v.Keyed K) (hvs : AllKeyed K vs) :
    AllKeyed K (v :: vs) :=
  List.forall_mem_cons.mpr ⟨hv, hvs⟩

theorem AllKeyed.append {vs ws : List Value} (hvs : AllKeyed K vs) (hws : AllKeyed K ws) :
    AllKeyed K (vs ++ ws) :=
  List.forall_mem_append.mpr ⟨hvs, hws⟩

theorem AllKeyed.replicate_nil (n : Nat) : AllKeyed K (List.replicate n nil) := by
  intro v hv
  rw [List.eq_of_mem_replicate hv]
  exact .nil

/-- A keyed value takes the place of another one. -/
theorem AllKeyed.set {vs : List Value} {v : Value} (hvs : AllKeyed K vs) (hv : v.Keyed K)
    (i : Nat) : AllKeyed K (vs.set i v) := by
  intro w hw
  rcases List.mem_or_eq_of_mem_set hw with h | rfl
  · exact hvs w h
  · exact hv

/-- An item of a keyed list is keyed. -/
theorem AllKeyed.getElem? {vs : List Value} (hvs : AllKeyed K vs) {i : Nat} {v : Value}
    (h : vs[i]? = some v) : v.Keyed K :=
  hvs v (List.mem_of_getElem? h)

/-- A value that may be missing, and then the empty value. -/
theorem keyed_getD {v : Option Value} (h : ∀ w, v = some w → w.Keyed K) : (v.getD nil).Keyed K := by
  cases v with
  | none => exact .nil
  | some w => exact h w rfl

end Value

/-! ## Tables -/

namespace Table

variable {t : Table Value} {k : String} {v : Value}

theorem Keyed.nil : Keyed K [] := nofun

/-- A table grows by an entry with an allowed key and a keyed value. -/
theorem Keyed.cons (hk : K k) (hv : v.Keyed K) (h : Keyed K t) : Keyed K ((k, v) :: t) :=
  List.forall_mem_cons.mpr ⟨⟨hk, hv⟩, h⟩

/-- What is found in a keyed table is keyed. -/
theorem Keyed.get? (h : Keyed K t) (hv : Table.get? t k = some v) : v.Keyed K :=
  (h _ (mem_of_get? hv)).2

/-- An entry with an allowed key and a keyed value goes into a keyed table. -/
theorem Keyed.insert (h : Keyed K t) (hk : K k) (hv : v.Keyed K) : Keyed K (Table.insert t k v) := by
  intro e he
  rcases mem_of_mem_insert he with rfl | he
  · exact ⟨hk, hv⟩
  · exact h e he

theorem Keyed.insertAll {entries : Table Value} (h : Keyed K t) (hentries : Keyed K entries) :
    Keyed K (Table.insertAll t entries) := by
  induction entries generalizing t with
  | nil => exact h
  | cons e rest ih =>
    obtain ⟨he, hrest⟩ := List.forall_mem_cons.mp hentries
    exact ih (h.insert he.1 he.2) hrest

/-- A table made of keyed entries is keyed. -/
theorem Keyed.ofList {entries : Table Value} (h : Keyed K entries) : Keyed K (Table.ofList entries) :=
  Keyed.nil.insertAll h

theorem keyed_of_all (h : ∀ k, K k) (t : Table Value) : Keyed K t :=
  fun e _ => ⟨h e.1, Value.keyed_of_all h e.2⟩

end Table

/-! ## Computations that yield something -/

/-- What a computation yields, if it does not fail, has a property. -/
def Gives (P : α → Prop) (r : Except Failure α) : Prop :=
  ∀ a, r = .ok a → P a

namespace Gives

variable {P : α → Prop} {Q : β → Prop}

theorem ok {a : α} (h : P a) : Gives P (.ok a) := by
  intro b hb
  cases hb
  exact h

theorem error (e : Failure) : Gives P (.error e) := nofun

/-- The second step may rely on what the first one gives. -/
theorem bind {r : Except Failure α} {f : α → Except Failure β} (h : Gives P r)
    (hf : ∀ a, P a → Gives Q (f a)) : Gives Q (r >>= f) := by
  cases r with
  | error e => exact error e
  | ok a => exact hf a (h a rfl)

/-- The second step gives what it should whatever the first one has given. -/
theorem any_bind {r : Except Failure α} {f : α → Except Failure β} (hf : ∀ a, Gives Q (f a)) :
    Gives Q (r >>= f) :=
  bind (P := fun _ => True) (fun _ _ => trivial) fun a _ => hf a

theorem map {r : Except Failure α} {f : α → β} (h : Gives P r) (hf : ∀ a, P a → Q (f a)) :
    Gives Q (r.map f) := by
  cases r with
  | error e => exact error e
  | ok a => exact ok (hf a (h a rfl))

end Gives

/-! ## Names that are keys

Names are kept in upper case, which is the normal form of a key. -/

/-- A name in upper case is in normal form. -/
theorem Value.normalizeKey_upper (s : String) : normalizeKey (Text.upper s) = Text.upper s := by
  unfold normalizeKey
  rw [Text.upper_upper, ite_self]

/-- Putting in upper case goes part by part. -/
theorem Text.upper_append (s t : String) : upper (s ++ t) = upper s ++ upper t := by
  unfold upper
  rw [String.toList_append, List.flatMap_append, String.ofList_append]

section Names

variable (hK : ∀ s, K (Value.normalizeKey s))
include hK

/-- A name in upper case may be a key. -/
theorem Text.key_upper (s : String) : K (upper s) := by
  rw [← Value.normalizeKey_upper]
  exact hK _

/-- A name that a program writes may be a key. -/
theorem Ident.key_name (x : Ident) : K x.name := by
  obtain ⟨spelling, h⟩ := x.canonical
  rw [h]
  exact Text.key_upper hK spelling

/-- The name of a member of an enumeration. -/
theorem Ident.key_joined (x y : Ident) : K (x.name ++ "_" ++ y.name) := by
  obtain ⟨s, hs⟩ := x.canonical
  obtain ⟨t, ht⟩ := y.canonical
  have hjoined : Text.upper (s ++ "_" ++ t) = x.name ++ "_" ++ y.name := by
    rw [Text.upper_append, Text.upper_append, hs, ht]
    rfl
  rw [← hjoined]
  exact Text.key_upper hK _

end Names

/-! ## Reading and writing below a value -/

namespace Value

variable {fields : Table Value} {v target : Value}

/-- A name finds a key that is there, or the normal form of the name. -/
theorem findKey?_cases {name key : String} (h : findKey? fields name = some key) :
    key = normalizeKey name ∨ key ∈ Table.keys fields := by
  unfold findKey? at h
  dsimp only at h
  split at h
  · cases h
    exact .inl rfl
  · exact .inr (List.mem_of_find?_eq_some h)

/-- A field of a keyed map is keyed, in whatever case it is asked for. -/
theorem keyed_of_lookup? {name : String} (hfields : Table.Keyed K fields)
    (h : lookup? fields name = some v) : v.Keyed K := by
  obtain ⟨key, -, hv⟩ := Option.bind_eq_some_iff.mp h
  exact hfields.get? hv

/-- The fields of a keyed value are keyed; a value that is no map has none. -/
theorem keyed_fieldsOf (h : v.Keyed K) : Table.Keyed K (fieldsOf v) := by
  cases v with
  | map fields => exact keyed_map.mp h
  | _ => exact .nil

/-- The items of a keyed value are keyed; a value that is no array has none. -/
theorem allKeyed_itemsOf (h : v.Keyed K) : AllKeyed K (itemsOf v) := by
  cases v with
  | array items => exact keyed_array.mp h
  | _ => exact nofun

/-- A field of a keyed map is keyed, or there is none and it counts as nothing. -/
theorem keyed_fieldAt (h : Table.Keyed K fields) (name : String) : (fieldAt fields name).Keyed K :=
  keyed_getD fun _ hw => h.get? hw

/-- What an index finds in a keyed value is keyed. -/
theorem keyed_itemAt (h : v.Keyed K) (i : Value) : (v.itemAt i).Keyed K := by
  cases v with
  | array items =>
    refine keyed_getD fun w hw => ?_
    obtain ⟨p, -, hp⟩ := Option.bind_eq_some_iff.mp hw
    exact (keyed_array.mp h).getElem? hp
  | map fields => exact keyed_getD fun w hw => keyed_of_lookup? (keyed_map.mp h) hw
  | str s =>
    unfold itemAt
    dsimp only
    cases (position? i).bind (s.toList[·]?) with
    | none => exact .nil
    | some c => exact .str _
  | _ => exact .nil

/-- What a path of fields leads to in a keyed value is keyed. -/
theorem keyed_of_getFields? {names : List String} (h : target.Keyed K)
    (hv : getFields? target names = some v) : v.Keyed K := by
  induction names generalizing target with
  | nil =>
    cases hv
    exact h
  | cons name rest ih =>
    cases target with
    | map fields =>
      obtain ⟨w, hw, hv⟩ := Option.bind_eq_some_iff.mp hv
      exact ih (keyed_of_lookup? (keyed_map.mp h) hw) hv
    | _ => cases hv

section Writes

variable (hK : ∀ s, K (normalizeKey s))
include hK

/-- A field is written under a key that is there already, or in its normal form. -/
theorem key_fieldKey (h : Table.Keyed K fields) (name : String) : K (fieldKey fields name) := by
  unfold fieldKey
  cases hkey : findKey? fields name with
  | none => exact hK name
  | some key =>
    rcases findKey?_cases hkey with rfl | hmem
    · exact hK name
    · obtain ⟨e, he, rfl⟩ := List.mem_map.mp hmem
      exact (h e he).1

/-- A field that is set goes under a key that is there already, or under its normal form. -/
theorem keyed_setKey (h : Table.Keyed K fields) (name : String) (hv : v.Keyed K) :
    Table.Keyed K (setKey fields name v) :=
  h.insert (key_fieldKey hK h name) hv

/-- Setting a field at the end of a path keeps a value keyed, maps that are made on the way
included. -/
theorem keyed_setFields (h : target.Keyed K) (hv : v.Keyed K) (names : List String) :
    (setFields target v names).Keyed K := by
  induction names generalizing target with
  | nil => exact hv
  | cons name rest ih =>
    have hfields := keyed_fieldsOf h
    exact keyed_map.mpr (keyed_setKey hK hfields name (ih (keyed_fieldAt hfields name)))

/-- Writing a field behind a path. -/
theorem keyed_setBelow (h : target.Keyed K) (hv : v.Keyed K) (path : List Step) (name : String) :
    (setBelow target path name v).Keyed K := by
  induction path generalizing target with
  | nil => exact keyed_setFields hK h hv _
  | cons step rest ih =>
    cases step with
    | field field =>
      have hfields := keyed_fieldsOf h
      exact keyed_map.mpr (keyed_setKey hK hfields field (ih (keyed_fieldAt hfields field)))
    | index i =>
      cases target with
      | map fields =>
        have hfields := keyed_map.mp h
        exact keyed_map.mpr (keyed_setKey hK hfields _ (ih (keyed_fieldAt hfields _)))
      | array items =>
        have hitems := keyed_array.mp h
        unfold setBelow
        dsimp only
        split
        · split
          · next child hchild =>
            exact keyed_array.mpr (hitems.set (ih (hitems.getElem? hchild)) _)
          · exact h
        · exact h
      | _ => exact h

omit hK in
/-- The items that are added up to a length are empty. -/
theorem allKeyed_padTo {items : List Value} (h : AllKeyed K items) (n : Nat) :
    AllKeyed K (padTo n items) := by
  unfold padTo
  split
  · exact h
  · exact h.append (AllKeyed.replicate_nil _)

omit hK in
/-- What a write below a keyed value starts from is keyed. -/
theorem keyed_container (h : v.Keyed K) : (container v).Keyed K := by
  cases v with
  | array items => exact h
  | map fields => exact h
  | _ => exact .array nofun

/-- Writing below a list of indices. -/
theorem writeAt_gives_keyed (max : Nat) (h : target.Keyed K) (hv : v.Keyed K) (is : List Value) :
    Gives (Keyed K) (writeAt max v target is) := by
  induction is generalizing target with
  | nil => exact .ok hv
  | cons i rest ih =>
    unfold writeAt
    split
    · next fields =>
      have hfields := keyed_map.mp h
      refine .bind (ih (keyed_getD fun _ hold => hfields.get? hold)) fun child hchild => ?_
      exact .ok (keyed_map.mpr (hfields.insert (key_fieldKey hK hfields _) hchild))
    · split
      · exact .ok h
      next p _ =>
      dsimp only
      split
      · exact .error _
      have hitems := allKeyed_padTo (allKeyed_itemsOf h) (p + 1)
      have hold := keyed_getD fun _ hold => hitems.getElem? (i := p) hold
      refine .bind (ih ?_) fun child hchild => .ok (keyed_array.mpr (hitems.set hchild p))
      split
      · exact hold
      · exact keyed_container hold

end Writes

/-! ## Arrays -/

/-- The items that are kept of a keyed list are keyed. -/
theorem keyed_of_mem_firstItems {items : List Value} (h : AllKeyed K items) {n : Nat}
    (hv : some v ∈ firstItems n items) : v.Keyed K := by
  rcases List.mem_append.mp hv with hv | hv
  · obtain ⟨w, hw, heq⟩ := List.mem_map.mp hv
    cases heq
    exact h _ (List.mem_of_mem_take hw)
  · cases List.eq_of_mem_replicate hv

/-- An array of new sizes around what an old one held. -/
theorem keyed_reshape {old : Option Value} (h : ∀ v, old = some v → v.Keyed K) (sizes : List Nat) :
    (reshape old sizes).Keyed K := by
  induction sizes generalizing old with
  | nil => exact .array nofun
  | cons n rest ih =>
    have hitems := allKeyed_itemsOf (keyed_getD h)
    cases rest with
    | nil =>
      refine keyed_array.mpr fun v hv => ?_
      obtain ⟨item, hitem, rfl⟩ := List.mem_map.mp hv
      exact keyed_getD fun w hw => keyed_of_mem_firstItems hitems (hw ▸ hitem)
    | cons n' rest =>
      refine keyed_array.mpr fun v hv => ?_
      obtain ⟨item, hitem, rfl⟩ := List.mem_map.mp hv
      exact ih fun w hw => keyed_of_mem_firstItems hitems (hw ▸ hitem)

/-! ## Operators

Operators yield no maps. -/

open Gives

/-- A unary operator makes no maps. -/
theorem unary_gives_keyed (op : UnaryOp) (v : Value) : Gives (Keyed K) (v.unary op) := by
  unfold unary
  split
  · exact ok (.bool _)
  · split
    · exact ok (.int _)
    · exact ok (.float _)
  · exact ok (.float _)
  · exact ok (.int _)
  · exact ok (.float _)
  · exact error _

/-- Arithmetic gives numbers, which have no keys. -/
theorem arithmetic_gives_keyed (exact' : Int → Int → Int) (rounded : Float → Float → Float)
    (a b : Value) : Gives (Keyed K) (arithmetic exact' rounded a b) := by
  have hdoubles : Gives (Keyed K) (do let x ← a.number; let y ← b.number; return float (rounded x y)) :=
    any_bind fun _ => any_bind fun _ => ok (.float _)
  unfold arithmetic
  dsimp only
  split
  · split
    · exact ok (.int _)
    · exact hdoubles
  · exact hdoubles

theorem pow_gives_keyed (a b : Value) : Gives (Keyed K) (pow a b) := by
  have hdoubles : Gives (Keyed K) (do let x ← a.number; let y ← b.number; return float (x.pow y)) :=
    any_bind fun _ => any_bind fun _ => ok (.float _)
  unfold pow
  dsimp only
  split
  · split
    · exact ok (.int _)
    · exact hdoubles
  · exact hdoubles

theorem mod_gives_keyed (a b : Value) : Gives (Keyed K) (mod a b) := by
  unfold mod
  split
  · split
    · exact error _
    · exact ok (.int _)
  · refine any_bind fun x => any_bind fun y => ?_
    split
    · exact error _
    · exact ok (.float _)

/-- A sum is a number or a text. -/
theorem add_gives_keyed (a b : Value) : Gives (Keyed K) (add a b) := by
  unfold add
  split
  · exact ok (.str _)
  · exact ok (.str _)
  · exact arithmetic_gives_keyed _ _ _ _

/-- A quotient is a number. -/
theorem intDiv_gives_keyed (a b : Value) : Gives (Keyed K) (intDiv a b) := by
  refine any_bind fun m => any_bind fun n => ?_
  split
  · exact error _
  · exact ok (.int _)

/-- **A binary operator makes no maps.** -/
theorem binary_gives_keyed (op : BinaryOp) (a b : Value) : Gives (Keyed K) (a.binary op b) := by
  cases op with
  | add => exact add_gives_keyed a b
  | sub | mul => exact arithmetic_gives_keyed _ _ _ _
  | div => exact any_bind fun _ => any_bind fun _ => ok (.float _)
  | intDiv => exact intDiv_gives_keyed a b
  | mod => exact mod_gives_keyed a b
  | pow => exact pow_gives_keyed a b
  | _ => exact ok (.bool _)

/-- A range is an array of numbers or of texts. -/
theorem range_gives_keyed (first last : Value) (max : Nat) :
    Gives (Keyed K) (first.range last max) := by
  unfold range
  split
  · split
    · refine ok (keyed_array.mpr fun v hv => ?_)
      obtain ⟨c, -, rfl⟩ := List.mem_map.mp hv
      exact .str _
    · exact error _
  · refine any_bind fun a => any_bind fun b => ?_
    dsimp only
    split
    · exact error _
    · refine ok (keyed_array.mpr fun v hv => ?_)
      obtain ⟨n, -, rfl⟩ := List.mem_map.mp hv
      exact .int _

/-! ## Maps that the language builds -/

/-- The keys by which the language marks its own maps. -/
def ownKeys : List String :=
  [typeKey, objectKey, methodKey, functionKey, namespaceKey, nameKey, lambdaIdKey, closureKey,
    paramCountKey, "MESSAGE", "KIND", "KEY", "VALUE"]

/-- The keys that the language uses itself are in normal form. -/
theorem normalizeKey_ownKeys : ∀ k ∈ ownKeys, normalizeKey k = k := by
  decide

section Built

variable (hK : ∀ s, K (normalizeKey s))
include hK

/-- The keys that the language uses itself are allowed. -/
theorem key_own {k : String} (h : k ∈ ownKeys) : K k := by
  rw [← normalizeKey_ownKeys k h]
  exact hK k

/-- A map that gets a tag stays keyed. -/
theorem keyed_tagged (tag : String) (h : Table.Keyed K fields) : (tagged tag fields).Keyed K :=
  keyed_map.mpr (h.insert (key_own hK (by decide)) (.str tag))

/-- A method object is keyed if its receiver is. -/
theorem keyed_boundMethod (h : v.Keyed K) (method function : String) :
    (boundMethod v method function).Keyed K := by
  refine keyed_map.mpr (.ofList ?_)
  exact .cons (key_own hK (by decide)) (.str _) (.cons (key_own hK (by decide)) h
    (.cons (key_own hK (by decide)) (.str _) (.cons (key_own hK (by decide)) (.str _) .nil)))

/-- The method of a namespace as a value has none but the keys of the language. -/
theorem keyed_namespaceMethod (ns method function : String) :
    (namespaceMethod ns method function).Keyed K := by
  refine keyed_map.mpr (.ofList ?_)
  exact .cons (key_own hK (by decide)) (.str _) (.cons (key_own hK (by decide)) (.str _)
    (.cons (key_own hK (by decide)) (.str _) (.cons (key_own hK (by decide)) (.str _) .nil)))

/-- A lambda holds what it has seen. -/
theorem keyed_lambda {closure : Table Value} (h : Table.Keyed K closure) (count id : Int64) :
    (map (Table.ofList [(typeKey, .str lambdaTag), (paramCountKey, .int count),
      (closureKey, .map closure), (lambdaIdKey, .int id)])).Keyed K := by
  refine keyed_map.mpr (.ofList ?_)
  exact .cons (key_own hK (by decide)) (.str _) (.cons (key_own hK (by decide)) (.int _)
    (.cons (key_own hK (by decide)) (keyed_map.mpr h)
      (.cons (key_own hK (by decide)) (.int _) .nil)))

/-- A FOR EACH loop goes through items, or through entries with KEY and VALUE. -/
theorem allKeyed_elementsOf (h : v.Keyed K) : AllKeyed K (elementsOf v) := by
  cases v with
  | array items => exact keyed_array.mp h
  | map fields =>
    intro w hw
    obtain ⟨e, he, rfl⟩ := List.mem_map.mp hw
    refine keyed_map.mpr (.ofList ?_)
    exact .cons (key_own hK (by decide)) (.str _)
      (.cons (key_own hK (by decide)) (keyed_map.mp h e he).2 .nil)
  | _ => exact nofun

end Built

end Value

/-- A failure as a value has none but the keys of the language. -/
theorem Failure.keyed_toValue (hK : ∀ s, K (Value.normalizeKey s)) (e : Failure) :
    e.toValue.Keyed K := by
  refine Value.keyed_tagged hK "Error" (.ofList ?_)
  exact .cons (Value.key_own hK (by decide)) (.str _)
    (.cons (Value.key_own hK (by decide)) (.str _) .nil)

/-- A new object whose fields are set by name stays keyed. -/
theorem keyed_construct (hK : ∀ s, K (Value.normalizeKey s)) {object : Value}
    (h : object.Keyed K) {named : List NamedValue} (hnamed : ∀ a ∈ named, a.2.Keyed K) :
    (construct object named).Keyed K := by
  cases object with
  | map fields =>
    unfold construct
    dsimp only
    rw [Value.keyed_map] at h ⊢
    induction named generalizing fields with
    | nil => exact h
    | cons a rest ih =>
      obtain ⟨ha, hrest⟩ := List.forall_mem_cons.mp hnamed
      exact ih hrest _ (Value.keyed_setKey hK h a.1.name ha)
  | _ => exact h

/-- What a lambda has seen is keyed if the lambda is. -/
theorem keyed_closureOf {fields : Table Value} (h : Table.Keyed K fields) :
    Table.Keyed K (closureOf fields) := by
  unfold closureOf
  split
  · next closure hclosure => exact Value.keyed_map.mp (h.get? hclosure)
  · exact .nil

/-- An array of texts has no keys. -/
theorem keyed_textArray (texts : List String) : (textArray texts).Keyed K := by
  refine Value.keyed_array.mpr fun v hv => ?_
  obtain ⟨text, -, rfl⟩ := List.mem_map.mp hv
  exact .str text

/-! ## Calls -/

/-- What stands for the call of a method that answers with nothing. -/
theorem keyed_of_chainTarget? {receiver found target : Value} {method : String}
    (hreceiver : receiver.Keyed K) (hfound : found.Keyed K)
    (h : chainTarget? receiver found method = some target) : target.Keyed K := by
  unfold chainTarget? at h
  split at h
  · cases h
    exact hreceiver
  · split at h
    · next fields =>
      split at h
      · split at h
        · cases h
          cases hobject : Table.get? fields Value.objectKey with
          | none => exact hreceiver
          | some object => exact (Value.keyed_map.mp hfound).get? hobject
        · cases h
      · cases h
    · cases h

/-- What a call answers with is keyed if both answers would be. -/
theorem keyed_orTarget {target? : Option Value} {v : Value}
    (htarget : ∀ target, target? = some target → target.Keyed K) (hv : v.Keyed K) :
    (Engine.orTarget target? v).Keyed K := by
  unfold Engine.orTarget
  split
  · exact htarget _ rfl
  · exact hv

/-- The arguments in the places of their parameters. -/
theorem keyed_of_mem_placeArgs {params : List Binder} {args : List Value}
    {named : List NamedValue} (hargs : Value.AllKeyed K args) (hnamed : ∀ a ∈ named, a.2.Keyed K)
    {v : Value} (hv : some v ∈ placeArgs params args named) : v.Keyed K := by
  unfold placeArgs at hv
  generalize hplaces : (args.take params.length).map some ++ _ = places at hv
  have hstart : ∀ w, some w ∈ places → w.Keyed K := by
    intro w hw
    rw [← hplaces] at hw
    rcases List.mem_append.mp hw with hw | hw
    · obtain ⟨a, ha, heq⟩ := List.mem_map.mp hw
      cases heq
      exact hargs _ (List.mem_of_mem_take ha)
    · cases List.eq_of_mem_replicate hw
  clear hplaces
  induction named generalizing places with
  | nil => exact hstart v hv
  | cons a rest ih =>
    obtain ⟨ha, hrest⟩ := List.forall_mem_cons.mp hnamed
    refine ih hrest _ hv fun w hw => ?_
    unfold placeNamed at hw
    split at hw
    · rcases List.mem_or_eq_of_mem_set hw with hw | heq
      · exact hstart w hw
      · cases heq
        exact ha
    · exact hstart w hw

end BasicScript
