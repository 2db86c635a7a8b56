import BasicScript.Proofs.Field
import Mathlib.Data.List.Forall2

/-!
# Paths into values

An assignment below indices, below fields or below both walks down a value step by step, and builds
the value anew on its way back.  Here such a walk is taken apart into its steps.  A step meets a
*level* of the value, which is an array or a map: anything else has to make room for an array.  One
step down reads what stands there, one step up puts something else into its place.

* `Value.child?` reads a step below a value, `Value.follow?` behind a path.
* `Value.setChild` writes a step below a value, `Value.writeAlong` behind a path.
* `Value.levels` lists what a write meets along a path, `Value.descend` is what it meets behind the path,
  and `Level.leads` says where a step leads on.
* `Value.follow?_writeAlong`: what has been written behind a path is read there.
* `Value.levels_writeAlong`: at every level the write changes what stands at its own step only, so that
  by `Value.child?_setChild_of_elsewhere` all other steps read what they read before.
-/

namespace BasicScript.Value

/-- Arrays and maps. -/
def isContainer : Value → Bool
  | array _ | map _ => true
  | _ => false

/-- The text by which a step finds a field of a map. -/
def Step.text : Step → String
  | field name => name
  | index i => i.toText

/-- The place of an array that a step denotes. -/
def Step.place? : Step → Option Nat
  | field _ => none
  | index i => position? i

/-- What stands a step below a value.  A field may be missing; an item that is missing is the empty
value. -/
def child? (v : Value) : Step → Option Value
  | .field name => lookup? (fieldsOf v) name
  | .index i => some (v.itemAt i)

/-- What stands a step below a value, or the empty value. -/
def child (v : Value) (s : Step) : Value :=
  (v.child? s).getD nil

/-- The value with something else a step below it: a field of a map, or an item of an array that
grows as needed. -/
def setChild (v : Value) (s : Step) (w : Value) : Value :=
  match v, s with
  | map fields, s => map (setKey fields s.text w)
  | _, .field name => map (setKey [] name w)
  | v, .index i =>
    match position? i with
    | some p => array ((padTo (p + 1) (itemsOf v)).set p w)
    | none => v

/-- What stands behind a path, if every name on the way finds a field. -/
def follow? : Value → List Step → Option Value
  | v, [] => some v
  | v, s :: rest => (v.child? s).bind (follow? · rest)

/-- The value with something else behind a path.  What is neither an array nor a map on the way makes
room for an array. -/
def writeAlong : Value → List Step → Value → Value
  | _, [], v => v
  | target, s :: rest, v =>
    target.container.setChild s (writeAlong (target.container.child s) rest v)

/-- A level of a value, and the step that a path takes from there. -/
structure Level where
  value : Value
  step : Step

/-- What a write meets behind a path. -/
def descend (target : Value) (path : List Step) : Value :=
  path.foldl (fun v s => v.container.child s) target

/-- The levels that a path meets on its way down a value. -/
def levels : Value → List Step → List Level
  | _, [] => []
  | v, s :: rest => ⟨v.container, s⟩ :: levels (v.container.child s) rest

/-- The step leads on: to a field, or to a place of an array. -/
def Level.leads (l : Level) : Bool :=
  match l.value, l.step with
  | map _, _ => true
  | _, .field _ => true
  | _, .index i => (position? i).isSome

/-- A step that leads elsewhere than another one: by a text that is apart in a map, to another place
in an array. -/
def Elsewhere (v : Value) (s s' : Step) : Prop :=
  match v with
  | map _ => Apart s.text s'.text
  | _ => s.place? ≠ s'.place?

/-! ## Arrays that grow -/

/-- A list that is filled up has at least that length. -/
theorem le_length_padTo (n : Nat) (items : List Value) : n ≤ (padTo n items).length := by
  unfold padTo
  split
  · assumption
  · rw [List.length_append, List.length_replicate]
    omega

/-- A list that is long enough is not filled up. -/
theorem padTo_of_le {n : Nat} {items : List Value} (h : n ≤ items.length) : padTo n items = items :=
  if_pos h

/-- The items that an array grows by are empty values. -/
theorem getD_padTo (n : Nat) (items : List Value) (q : Nat) :
    ((padTo n items)[q]?).getD nil = (items[q]?).getD nil := by
  unfold padTo
  split
  · rfl
  · rw [List.getElem?_append]
    split
    · rfl
    · next hq =>
      rw [List.getElem?_replicate, List.getElem?_eq_none (Nat.le_of_not_lt hq)]
      split <;> rfl

/-- The place that is written holds what was written. -/
theorem getElem?_set_padTo (p : Nat) (items : List Value) (w : Value) :
    ((padTo (p + 1) items).set p w)[p]? = some w :=
  List.getElem?_set_self (le_length_padTo (p + 1) items)

/-- All other places hold what they held, or nothing. -/
theorem getD_set_padTo_of_ne {p q : Nat} (h : p ≠ q) (items : List Value) (w : Value) :
    (((padTo (p + 1) items).set p w)[q]?).getD nil = (items[q]?).getD nil := by
  rw [List.getElem?_set_ne h, getD_padTo]

/-! ## Levels -/

variable {v target w : Value} {s s' : Step} {path : List Step}

/-- Room is made once. -/
theorem container_container (v : Value) : v.container.container = v.container := by
  cases v <;> rfl

/-- A value is a map, or it is for a write as the array of its items. -/
theorem map_or_container_eq (v : Value) :
    (∃ fields, v = map fields) ∨
      (∀ fields, v ≠ map fields) ∧ v.container = array (itemsOf v) := by
  cases v with
  | map fields => exact .inl ⟨fields, rfl⟩
  | _ => exact .inr ⟨nofun, rfl⟩

/-- A write at a place of an array fills the array up to there. -/
theorem setChild_array {i : Value} {p : Nat} (hp : position? i = some p) (items : List Value) :
    (array items).setChild (.index i) = fun w => array ((padTo (p + 1) items).set p w) := by
  funext w
  simp only [setChild, hp, itemsOf]

/-- What has been written needs no more room. -/
theorem container_setChild (h : Level.leads ⟨v, s⟩ = true) (w : Value) :
    (v.setChild s w).container = v.setChild s w := by
  cases v with
  | map fields => rfl
  | _ =>
    cases s with
    | field name => rfl
    | index i =>
      obtain ⟨p, hp⟩ := Option.isSome_iff_exists.mp h
      simp only [setChild, hp]
      rfl

/-- The levels of a path are those below what makes room for it. -/
theorem levels_container (v : Value) (path : List Step) :
    levels v.container path = levels v path := by
  cases path with
  | nil => rfl
  | cons s rest =>
    unfold levels
    rw [container_container]

/-- A write may start from the room that it would make. -/
theorem writeAlong_container (target : Value) (path : List Step) (v : Value) :
    writeAlong target.container path v = writeAlong target path v := by
  cases path with
  | nil => rfl
  | cons s rest =>
    unfold writeAlong
    rw [container_container]

/-! ## One step -/

/-- **What has been put below a value is read there.** -/
theorem child?_setChild_self (h : Level.leads ⟨v, s⟩ = true) (w : Value) :
    (v.setChild s w).child? s = some w := by
  cases s with
  | field name =>
    cases v with
    | map fields => exact lookup?_setKey_self fields name w
    | _ => exact lookup?_setKey_self [] name w
  | index i =>
    cases v with
    | map fields =>
      have hfound : lookup? (setKey fields i.toText w) i.toText = some w :=
        lookup?_setKey_self fields i.toText w
      show some ((lookup? (setKey fields i.toText w) i.toText).getD nil) = some w
      rw [hfound]
      rfl
    | _ =>
      obtain ⟨p, hp⟩ := Option.isSome_iff_exists.mp h
      simp only [setChild, child?, hp, itemAt, Option.bind_some, getElem?_set_padTo,
        Option.getD_some]

/-- **A step that leads elsewhere reads what it read before.**  The value has to be a map, or an array
that is written at an index: a field makes a map of what was none. -/
theorem child?_setChild_of_elsewhere (h : v.Elsewhere s s')
    (hfits : (∃ fields, v = map fields) ∨ ∃ items i, v = array items ∧ s = .index i)
    (w : Value) : (v.setChild s w).child? s' = v.child? s' := by
  rcases hfits with ⟨fields, hv⟩ | ⟨items, i, hv, hs⟩
  · rw [hv] at h ⊢
    have hsame : lookup? (setKey fields s.text w) s'.text = lookup? fields s'.text :=
      lookup?_setKey_of_apart h
    cases s' with
    | field name => exact hsame
    | index j => exact congrArg (fun found : Option Value => some (found.getD nil)) hsame
  · rw [hv, hs] at h ⊢
    unfold setChild
    dsimp only
    cases hp : position? i with
    | none => rfl
    | some p =>
      cases s' with
      | field name => rfl
      | index j =>
        show some ((position? j).bind _ |>.getD nil) = some ((position? j).bind _ |>.getD nil)
        cases hq : position? j with
        | none => rfl
        | some q =>
          have hne : p ≠ q := by
            intro heq
            apply h
            show position? i = position? j
            rw [hp, hq, heq]
          exact congrArg some (getD_set_padTo_of_ne hne items w)

/-- Two steps that lead apart do so in the room that is made for a write. -/
theorem Elsewhere.container (h : v.Elsewhere s s') : v.container.Elsewhere s s' := by
  cases v <;> exact h

/-! ## Whole paths -/

/-- The levels along a path are those along its first part and then along the rest. -/
theorem levels_append (target : Value) (path rest : List Step) :
    levels target (path ++ rest) = levels target path ++ levels (target.descend path) rest := by
  induction path generalizing target with
  | nil => rfl
  | cons s path ih => exact congrArg (⟨target.container, s⟩ :: ·) (ih _)

/-- The levels of a path with one more step. -/
theorem forall_levels_snoc {P : Level → Prop} :
    (∀ l ∈ levels target (path ++ [s]), P l) ↔
      (∀ l ∈ levels target path, P l) ∧ P ⟨(target.descend path).container, s⟩ := by
  rw [levels_append, List.forall_mem_append]
  exact and_congr_right fun _ => List.forall_mem_singleton

/-- A write behind a longer path is at the end of a shorter one a write behind the rest. -/
theorem follow?_writeAlong_append (h : ∀ l ∈ levels target path, l.leads = true)
    (rest : List Step) (v : Value) :
    (writeAlong target (path ++ rest) v).follow? path =
      some (writeAlong (target.descend path) rest v) := by
  induction path generalizing target with
  | nil => rfl
  | cons s path ih =>
    obtain ⟨hfirst, hpath⟩ := List.forall_mem_cons.mp h
    show ((target.container.setChild s (writeAlong _ (path ++ rest) v)).child? s).bind _ = _
    rw [child?_setChild_self hfirst]
    exact ih hpath

/-- **What has been written behind a path is read there.** -/
theorem follow?_writeAlong (h : ∀ l ∈ levels target path, l.leads = true) (v : Value) :
    (writeAlong target path v).follow? path = some v := by
  have hend := follow?_writeAlong_append h [] v
  rw [List.append_nil] at hend
  exact hend

/-- A level as a write leaves it: something has been put a step below it. -/
def Level.Written (l l' : Level) : Prop :=
  l'.step = l.step ∧ ∃ w, l'.value = l.value.setChild l.step w

/-- **A write puts something below each level that its path meets.** -/
theorem levels_writeAlong (h : ∀ l ∈ levels target path, l.leads = true) (v : Value) :
    List.Forall₂ Level.Written (levels target path) (levels (writeAlong target path v) path) := by
  induction path generalizing target with
  | nil => exact .nil
  | cons s rest ih =>
    obtain ⟨hfirst, hrest⟩ := List.forall_mem_cons.mp h
    unfold levels writeAlong
    rw [container_setChild hfirst]
    refine .cons ⟨rfl, _, rfl⟩ ?_
    have hbelow : ∀ w, (target.container.setChild s w).child s = w := by
      intro w
      unfold child
      rw [child?_setChild_self hfirst]
      rfl
    rw [hbelow]
    exact ih hrest

end BasicScript.Value
