import BasicScript.Proofs.Effect

/-!
# Assignments

An assignment writes one variable of one scope, and a read of the name finds it there.  The two go
through the scopes on ways of their own.  An assignment asks the scopes up to the nearest frame which
of them marks the name GLOBAL or binds it; a read goes through all scopes, and is sent to the root by
each GLOBAL mark that it meets.

* `Chain.scopes` are all scopes of a chain, and `Chain.reach` those up to the nearest frame.
* `Chain.assignedSlot` and `Chain.definedSlot`: the scope whose variable is written.
* `Chain.WritesOnly`: one variable of one scope is written and nothing else.
* `assignment_writes_one_slot` says this of all assignments and declarations that succeed.
* `Chain.set_of_bound`: a name that is bound and no constant can be assigned to.
-/

namespace BasicScript

/-- The scope marks a name GLOBAL or binds it. -/
def Scope.decides (s : Scope) (name : String) : Bool :=
  name ∈ s.globals || Table.contains s.vars name

/-- A scope passes a name on if it neither marks nor binds it. -/
theorem Scope.decides_eq_false_iff {s : Scope} {name : String} :
    s.decides name = false ↔ name ∉ s.globals ∧ Table.get? s.vars name = none := by
  simp [decides, Table.contains]

namespace Chain

/-! ## Slots -/

/-- All scopes, the innermost one first and the root last. -/
def scopes (c : Chain) : List Scope :=
  c.inner ++ [c.root]

/-- The scopes up to the nearest frame, for a list of scopes inside a root.  The root is a frame. -/
def reachIn (root : Scope) : List Scope → List Scope
  | [] => [root]
  | s :: rest => if s.frame then [s] else s :: reachIn root rest

/-- The scopes up to the nearest frame. -/
def reach (c : Chain) : List Scope :=
  reachIn c.root c.inner

/-- The scope whose variable an assignment writes, counted from the innermost one.  The first scope
up to the nearest frame that marks the name GLOBAL or binds it decides: a mark sends the write to the
root.  If there is none it is the innermost scope. -/
def assignedSlot (c : Chain) (name : String) : Nat :=
  match c.reach.find? (·.decides name) with
  | some s =>
    if name ∈ s.globals then c.inner.length else c.reach.findIdx (·.decides name)
  | none => 0

/-- The scope whose variable a declaration writes: the innermost one, or the root where the innermost
one marks the name GLOBAL. -/
def definedSlot (c : Chain) (name : String) : Nat :=
  if name ∈ c.top.globals then c.inner.length else 0

/-- The value of a name in one of the scopes, whatever the others hold. -/
def valueAt? (c : Chain) (i : Nat) (name : String) : Option Value :=
  c.scopes[i]?.bind fun s => Table.get? s.vars name

/-- A write of one variable of one scope: it has the value afterwards, and all other variables, the
constants and the GLOBAL marks of all scopes are as before, and so is what the scopes are. -/
structure WritesOnly (i : Nat) (name : String) (v : Value) (c c' : Chain) : Prop where
  exists_scope : i < c.scopes.length
  written : c'.valueAt? i name = some v
  kept : ∀ j x, (j, x) ≠ (i, name) → c'.valueAt? j x = c.valueAt? j x
  consts : c'.scopes.map (·.consts) = c.scopes.map (·.consts)
  globals : c'.scopes.map (·.globals) = c.scopes.map (·.globals)
  strict : c'.scopes.map (·.strict) = c.scopes.map (·.strict)
  frame : c'.scopes.map (·.frame) = c.scopes.map (·.frame)

section Slots

variable {root : Scope} {name : String}

theorem length_scopes (c : Chain) : c.scopes.length = c.inner.length + 1 := by
  simp [scopes]

/-- No more scopes are within reach than there are. -/
theorem length_reachIn_le (inner : List Scope) : (reachIn root inner).length ≤ inner.length + 1 := by
  induction inner with
  | nil => exact Nat.le_refl 1
  | cons s rest ih =>
    unfold reachIn
    split
    · exact Nat.le_add_left 1 _
    · exact Nat.succ_le_succ ih

/-- The scope that an assignment writes is one of the chain. -/
theorem assignedSlot_lt (c : Chain) (name : String) : c.assignedSlot name < c.scopes.length := by
  rw [length_scopes]
  unfold assignedSlot
  split
  · next s hfind =>
    split
    · exact Nat.lt_succ_self _
    · have hexists := List.find?_isSome.mp (Option.isSome_iff_exists.mpr ⟨s, hfind⟩)
      have hreach : c.reach.length ≤ c.inner.length + 1 := length_reachIn_le c.inner
      exact Nat.lt_of_lt_of_le (List.findIdx_lt_length_of_exists hexists) hreach
  · exact Nat.succ_pos _

/-- The root alone is written wherever the name is marked or bound. -/
theorem assignedSlot_root : assignedSlot ⟨[], root⟩ name = 0 := by
  unfold assignedSlot reach reachIn
  cases hdecides : root.decides name <;> simp [hdecides]

/-- The search for a scope that binds or marks a name goes through the scopes within reach. -/
theorem any_decides_reachIn (inner : List Scope) :
    (reachIn root inner).any (·.decides name) = bindsInFrame root name inner := by
  induction inner with
  | nil => simp [reachIn, bindsInFrame, Scope.decides, Bool.or_comm]
  | cons s rest ih =>
    have hdecides : (Table.contains s.vars name || decide (name ∈ s.globals)) = s.decides name :=
      Bool.or_comm _ _
    unfold reachIn bindsInFrame
    rw [hdecides, ← ih]
    cases hframe : s.frame <;> simp

variable {s : Scope} {rest : List Scope}

/-- A scope that marks the name sends the write to the root. -/
theorem assignedSlot_of_marked (hmark : name ∈ s.globals) :
    assignedSlot ⟨s :: rest, root⟩ name = rest.length + 1 := by
  have hdecides : s.decides name = true := by simp [Scope.decides, hmark]
  unfold assignedSlot reach reachIn
  cases hframe : s.frame <;> simp [hdecides, hmark]

/-- A scope that does not mark the name is written itself if it binds the name, if it is a frame, or
if no scope behind it decides. -/
theorem assignedSlot_of_here (hmark : name ∉ s.globals)
    (hhere : Table.contains s.vars name || s.frame || !bindsInFrame root name rest) :
    assignedSlot ⟨s :: rest, root⟩ name = 0 := by
  unfold assignedSlot reach reachIn
  cases hbound : Table.contains s.vars name with
  | true =>
    have hdecides : s.decides name = true := by simp [Scope.decides, hbound]
    cases hframe : s.frame <;> simp [hdecides, hmark, List.findIdx_cons]
  | false =>
    have hdecides : s.decides name = false := by simp [Scope.decides, hbound, hmark]
    cases hframe : s.frame with
    | true => simp [hdecides]
    | false =>
      have hnone : bindsInFrame root name rest = false := by simpa [hbound, hframe] using hhere
      rw [← any_decides_reachIn] at hnone
      have hfind : (reachIn root rest).find? (·.decides name) = none := by
        simpa using hnone
      simp [hdecides, hfind]

/-- Otherwise the scopes behind it decide. -/
theorem assignedSlot_of_outward (hmark : name ∉ s.globals)
    (hbound : Table.contains s.vars name = false) (hframe : s.frame = false)
    (hrest : bindsInFrame root name rest = true) :
    assignedSlot ⟨s :: rest, root⟩ name = assignedSlot ⟨rest, root⟩ name + 1 := by
  have hdecides : s.decides name = false := by simp [Scope.decides, hbound, hmark]
  have hreach : reach ⟨s :: rest, root⟩ = s :: reach ⟨rest, root⟩ := by
    simp [reach, reachIn, hframe]
  rw [← any_decides_reachIn] at hrest
  obtain ⟨t, ht⟩ := Option.isSome_iff_exists.mp (List.find?_isSome.mpr (List.any_eq_true.mp hrest))
  unfold assignedSlot
  rw [hreach, List.find?_cons, hdecides, List.findIdx_cons, hdecides]
  have ht' : (reach ⟨rest, root⟩).find? (·.decides name) = some t := ht
  simp only [ht', List.length_cons, cond_false]
  split <;> rfl

end Slots

/-! ## Reading at the innermost scope -/

section Reading

variable {root s : Scope} {rest : List Scope} {name : String} {v : Value}

/-- A mark sends a read to the root. -/
theorem lookup?_of_marked (hmark : name ∈ s.globals) :
    lookup? ⟨s :: rest, root⟩ name = Table.get? root.vars name :=
  if_pos hmark

/-- A read finds what the innermost scope binds, unless the name is marked there. -/
theorem lookup?_of_bound (hmark : name ∉ s.globals) (hbound : Table.get? s.vars name = some v) :
    lookup? ⟨s :: rest, root⟩ name = some v := by
  unfold lookup? lookupIn
  rw [if_neg hmark, hbound]

/-- A read goes on outward where the name is neither marked nor bound. -/
theorem lookup?_of_passed (hmark : name ∉ s.globals) (hbound : Table.get? s.vars name = none) :
    lookup? ⟨s :: rest, root⟩ name = lookup? ⟨rest, root⟩ name := by
  unfold lookup?
  rw [lookupIn, if_neg hmark, hbound]

/-- A mark sends the question for a constant to the root. -/
theorem isConst_of_marked (hmark : name ∈ s.globals) :
    isConst ⟨s :: rest, root⟩ name = decide (name ∈ root.consts) :=
  if_pos hmark

/-- A variable hides a constant outside. -/
theorem isConst_of_bound (hmark : name ∉ s.globals) (hfresh : name ∉ s.consts)
    (hbound : Table.get? s.vars name = some v) : isConst ⟨s :: rest, root⟩ name = false := by
  unfold isConst isConstIn Table.contains
  rw [if_neg hmark, if_neg hfresh, hbound]
  rfl

/-- The question for a constant goes on outward where the name means nothing. -/
theorem isConst_of_passed (hmark : name ∉ s.globals) (hfresh : name ∉ s.consts)
    (hbound : Table.get? s.vars name = none) :
    isConst ⟨s :: rest, root⟩ name = isConst ⟨rest, root⟩ name := by
  unfold isConst
  rw [isConstIn, if_neg hmark, if_neg hfresh, Table.contains, hbound]
  rfl

/-- Reading a name that has a value gives the value, strict or not. -/
theorem get_of_lookup? {c : Chain} (h : c.lookup? name = some v) : c.get name = .ok v := by
  unfold get
  rw [h]

end Reading

/-! ## One slot is written -/

section Writes

variable {c c' : Chain} {name : String} {v : Value}

/-- What a change of one scope leaves alone in all scopes. -/
theorem map_modify_of_eq {β : Type} {f : Scope → Scope} {g : Scope → β} (h : ∀ s, g (f s) = g s)
    (scopes : List Scope) (i : Nat) : (scopes.modify i f).map g = scopes.map g := by
  induction scopes generalizing i with
  | nil => simp
  | cons s rest ih =>
    cases i with
    | zero => simp [h]
    | succ i => simp [ih]

/-- A change of the scopes that declares names at most, and then a write of one of them. -/
theorem WritesOnly.of_modify {i : Nat} {f : Scope → Scope}
    (hf : ∀ s, ∃ declared, f s = { s with declared }) (hi : i < c.scopes.length)
    (h : c'.scopes = (c.scopes.modify 0 f).modify i (·.write name v)) :
    c.WritesOnly i name v c' := by
  have hfield : ∀ {β : Type} (g : Scope → β), (∀ s declared, g { s with declared } = g s) →
      (∀ s, g (s.write name v) = g s) → c'.scopes.map g = c.scopes.map g := by
    intro β g hdeclared hwrite
    have hg : ∀ s, g (f s) = g s := by
      intro s
      obtain ⟨declared, hs⟩ := hf s
      rw [hs, hdeclared]
    rw [h, map_modify_of_eq hwrite, map_modify_of_eq hg]
  -- Declarations change the value of no name.
  have hvars : ∀ j x, (c.scopes.modify 0 f)[j]?.bind (fun s => Table.get? s.vars x) =
      c.valueAt? j x := by
    intro j x
    unfold valueAt?
    rw [List.getElem?_modify]
    cases c.scopes[j]? with
    | none => rfl
    | some s =>
      obtain ⟨declared, hs⟩ := hf s
      by_cases hj : 0 = j <;> simp [hj, hs]
  refine ⟨hi, ?_, ?_, ?_, ?_, ?_, ?_⟩
  · have hlength : i < (c.scopes.modify 0 f).length := by rwa [List.length_modify]
    unfold valueAt?
    rw [h, List.getElem?_modify, List.getElem?_eq_getElem hlength]
    simp [Scope.write]
  · intro j x hne
    rw [← hvars j x]
    unfold valueAt?
    rw [h, List.getElem?_modify]
    cases (c.scopes.modify 0 f)[j]? with
    | none => rfl
    | some s =>
      by_cases hj : i = j
      · have hx : name ≠ x := by
          rintro rfl
          exact hne (by rw [hj])
        simp [hj, Scope.write, Table.get?_insert_of_ne _ _ hx]
      · simp [hj]
  · exact hfield (·.consts) (fun _ _ => rfl) fun _ => rfl
  · exact hfield (·.globals) (fun _ _ => rfl) fun _ => rfl
  · exact hfield (·.strict) (fun _ _ => rfl) fun _ => rfl
  · exact hfield (·.frame) (fun _ _ => rfl) fun _ => rfl

/-- The last one of all scopes is the root. -/
theorem modify_root (inner : List Scope) (root : Scope) (f : Scope → Scope) :
    (inner ++ [root]).modify inner.length f = inner ++ [f root] := by
  induction inner with
  | nil => rfl
  | cons s rest ih => exact congrArg (s :: ·) ih

/-- A write is found where it was made. -/
theorem get?_write (s : Scope) (name : String) (v : Value) :
    Table.get? (s.write name v).vars name = some v :=
  Table.get?_insert_self s.vars name v

/-- A plain assignment writes the slot that decides, and there the name is found. -/
theorem assignIn_eq_ok {root : Scope} {inner : List Scope} (h : assignIn root name v inner = .ok c') :
    c'.scopes =
        (inner ++ [root]).modify (assignedSlot ⟨inner, root⟩ name) (·.write name v) ∧
      c'.lookup? name = some v := by
  induction inner generalizing c' with
  | nil =>
    have hroot : c' = ⟨[], root.write name v⟩ := by
      unfold assignIn at h
      split at h
      · obtain ⟨root', hroot, rfl⟩ := ok_of_map_eq_ok h
        obtain ⟨-, rfl⟩ := setRoot_eq_ok hroot
        rfl
      · cases h
        rfl
    subst hroot
    rw [assignedSlot_root]
    exact ⟨rfl, get?_write root name v⟩
  | cons s rest ih =>
    unfold assignIn at h
    by_cases hmark : name ∈ s.globals
    · rw [if_pos hmark] at h
      obtain ⟨root', hroot, rfl⟩ := ok_of_map_eq_ok h
      obtain ⟨-, rfl⟩ := setRoot_eq_ok hroot
      rw [assignedSlot_of_marked hmark]
      refine ⟨?_, (lookup?_of_marked hmark).trans (get?_write root name v)⟩
      exact (modify_root (s :: rest) root (·.write name v)).symm
    rw [if_neg hmark] at h
    split at h
    · next hhere =>
      cases h
      rw [assignedSlot_of_here hmark hhere]
      exact ⟨rfl, lookup?_of_bound (s := s.write name v) hmark (get?_write s name v)⟩
    · next hpassed =>
      obtain ⟨c₁, hrest, rfl⟩ := ok_of_map_eq_ok h
      obtain ⟨hscopes, hlookup⟩ := ih hrest
      simp only [Bool.or_eq_true, not_or, Bool.not_eq_true, Bool.not_eq_false'] at hpassed
      obtain ⟨⟨hbound, hframe⟩, hbinds⟩ := hpassed
      rw [assignedSlot_of_outward hmark hbound hframe (by simpa using hbinds)]
      have hvars : Table.get? s.vars name = none := by simpa [Table.contains] using hbound
      exact ⟨congrArg (s :: ·) hscopes, (lookup?_of_passed hmark hvars).trans hlookup⟩

/-- What an assignment has done if it succeeds. -/
theorem set_eq_ok (h : c.set name v = .ok c') :
    c'.scopes = c.scopes.modify (c.assignedSlot name) (·.write name v) ∧
      c'.lookup? name = some v := by
  unfold set at h
  split at h
  · next hmark =>
    obtain ⟨root', hroot, rfl⟩ := ok_of_map_eq_ok h
    obtain ⟨-, rfl⟩ := setRoot_eq_ok hroot
    obtain ⟨_ | ⟨s, rest⟩, root⟩ := c
    · rw [assignedSlot_root]
      exact ⟨rfl, get?_write root name v⟩
    · have hmark' : name ∈ s.globals := hmark
      rw [assignedSlot_of_marked hmark']
      refine ⟨?_, (lookup?_of_marked hmark').trans (get?_write root name v)⟩
      exact (modify_root (s :: rest) root (·.write name v)).symm
  split at h
  · cases h
  split at h
  · cases h
  exact assignIn_eq_ok h

/-- What a declaration has done if it succeeds. -/
theorem define_eq_ok (h : c.define name v = (c', .ok ())) :
    c'.scopes =
        (c.scopes.modify 0 (·.declare name)).modify (c.definedSlot name) (·.write name v) ∧
      c'.lookup? name = some v := by
  unfold define at h
  unfold definedSlot
  split at h
  · cases h
  split at h
  · next hmark =>
    rw [if_pos hmark]
    dsimp only at h
    split at h
    · next root' hroot =>
      cases h
      obtain ⟨-, rfl⟩ := setRoot_eq_ok hroot
      obtain ⟨_ | ⟨s, rest⟩, root⟩ := c
      · exact ⟨rfl, get?_write _ name v⟩
      · have hmark' : name ∈ (s.declare name).globals := hmark
        refine ⟨?_, (lookup?_of_marked hmark').trans (get?_write root name v)⟩
        exact (modify_root (s.declare name :: rest) root (·.write name v)).symm
    · cases h
  · next hmark =>
    rw [if_neg hmark]
    cases h
    obtain ⟨_ | ⟨s, rest⟩, root⟩ := c
    · exact ⟨rfl, get?_write _ name v⟩
    · exact ⟨rfl, lookup?_of_bound (s := s.bind name v) hmark (get?_write _ name v)⟩

end Writes

/-! ## Which assignments succeed -/

section Succeeds

variable {root : Scope} {name : String} {v w : Value}

/-- The root can be written where it knows the name, unless as a constant; and anything else too if
OPTION EXPLICIT is not in force. -/
theorem setRoot_of_known {strict : Bool} (hconst : name ∉ root.consts)
    (hknown : strict = true → root.knows name = true) (v : Value) :
    setRoot root strict name v = .ok (root.write name v) := by
  unfold setRoot
  rw [if_neg hconst]
  cases strict with
  | false => rfl
  | true =>
    rw [hknown rfl]
    rfl

/-- A variable that the root binds can be written there. -/
theorem setRoot_of_bound (strict : Bool) (hconst : name ∉ root.consts)
    (hbound : Table.get? root.vars name = some w) :
    setRoot root strict name v = .ok (root.write name v) :=
  setRoot_of_known hconst (fun _ => by simp [Scope.knows, Table.contains, hbound]) v

/-- A name that is bound and no constant can be assigned to, and is no constant afterwards.  The
search for a constant, the read and the assignment meet the same scopes. -/
theorem assignIn_of_bound {inner : List Scope} (hconst : isConst ⟨inner, root⟩ name = false)
    (hbound : lookup? ⟨inner, root⟩ name = some w) :
    ∃ c', assignIn root name v inner = .ok c' ∧ c'.isConst name = false := by
  induction inner with
  | nil =>
    have hfresh : name ∉ root.consts := of_decide_eq_false hconst
    refine ⟨⟨[], root.write name v⟩, ?_, hconst⟩
    unfold assignIn
    split
    · rw [setRoot_of_bound root.strict hfresh hbound]
      rfl
    · rfl
  | cons s rest ih =>
    unfold assignIn
    by_cases hmark : name ∈ s.globals
    · rw [isConst_of_marked hmark] at hconst
      rw [lookup?_of_marked hmark] at hbound
      refine ⟨⟨s :: rest, root.write name v⟩, ?_, (isConst_of_marked hmark).trans hconst⟩
      rw [if_pos hmark, setRoot_of_bound s.strict (of_decide_eq_false hconst) hbound]
      rfl
    have hfresh : name ∉ s.consts := not_mem_top_consts hconst hmark
    rw [if_neg hmark]
    split
    · exact ⟨⟨s.write name v :: rest, root⟩, rfl,
        isConst_of_bound (s := s.write name v) hmark hfresh (get?_write s name v)⟩
    · next hpassed =>
      simp only [Bool.or_eq_true, not_or, Bool.not_eq_true] at hpassed
      have hvars : Table.get? s.vars name = none := by
        simpa [Table.contains] using hpassed.1.1
      rw [isConst_of_passed hmark hfresh hvars] at hconst
      rw [lookup?_of_passed hmark hvars] at hbound
      obtain ⟨c', hrest, hconst'⟩ := ih hconst hbound
      exact ⟨c'.push s, by rw [hrest]; rfl, (isConst_of_passed hmark hfresh hvars).trans hconst'⟩

/-- A name that has a value counts as declared. -/
theorem isDeclared_of_bound {c : Chain} (hbound : c.lookup? name = some w) :
    c.isDeclared name = true := by
  obtain ⟨inner, root⟩ := c
  have hknows : ∀ s : Scope, Table.get? s.vars name = some w → s.knows name = true := by
    intro s hs
    simp [Scope.knows, Table.contains, hs]
  induction inner with
  | nil => exact Bool.or_eq_true_iff.mpr (.inr (hknows root hbound))
  | cons s rest ih =>
    unfold isDeclared at ih ⊢
    by_cases hmark : name ∈ s.globals
    · rw [lookup?_of_marked hmark] at hbound
      simp [hknows root hbound]
    · cases hs : Table.get? s.vars name with
      | some u =>
        rw [lookup?_of_bound hmark hs] at hbound
        simp [hknows s (hs.trans hbound)]
      | none =>
        rw [lookup?_of_passed hmark hs] at hbound
        rw [List.any_cons, Bool.or_assoc, ih hbound, Bool.or_true]

/-- **A name that is bound and no constant can be assigned to**, and stays so. -/
theorem set_of_bound {c : Chain} (hconst : c.isConst name = false)
    (hbound : c.lookup? name = some w) (v : Value) :
    ∃ c', c.set name v = .ok c' ∧ c'.lookup? name = some v ∧ c'.isConst name = false := by
  have hset : ∃ c', c.set name v = .ok c' ∧ c'.isConst name = false := by
    unfold set
    by_cases hmark : name ∈ c.top.globals
    · rw [if_pos hmark]
      obtain ⟨_ | ⟨s, rest⟩, root⟩ := c
      · have hfresh : name ∉ root.consts := of_decide_eq_false hconst
        exact ⟨⟨[], root.write name v⟩, by rw [setRoot_of_bound _ hfresh hbound]; rfl, hconst⟩
      · have hmark' : name ∈ s.globals := hmark
        rw [isConst_of_marked hmark'] at hconst
        rw [lookup?_of_marked hmark'] at hbound
        have hfresh : name ∉ root.consts := of_decide_eq_false hconst
        exact ⟨⟨s :: rest, root.write name v⟩, by rw [setRoot_of_bound _ hfresh hbound]; rfl,
          (isConst_of_marked hmark').trans hconst⟩
    · rw [if_neg hmark, hconst, if_neg Bool.false_ne_true, isDeclared_of_bound hbound]
      simpa using assignIn_of_bound hconst hbound
  obtain ⟨c', hc', hconst'⟩ := hset
  exact ⟨c', hc', (set_eq_ok hc').2, hconst'⟩

/-- A name that has been declared is no constant. -/
theorem isConst_of_define_ok {c c' : Chain} (h : c.define name v = (c', .ok ())) :
    c'.isConst name = false := by
  unfold define at h
  split at h
  · cases h
  next hconst =>
  rw [Bool.not_eq_true] at hconst
  split at h
  · next hmark =>
    dsimp only at h
    split at h
    · next root' hroot =>
      cases h
      obtain ⟨hfresh, rfl⟩ := setRoot_eq_ok hroot
      obtain ⟨_ | ⟨s, rest⟩, root⟩ := c
      · exact hconst
      · have hmark' : name ∈ (s.declare name).globals := hmark
        exact (isConst_of_marked hmark').trans (decide_eq_false hfresh)
    · cases h
  · next hmark =>
    cases h
    have hfresh := not_mem_top_consts hconst hmark
    obtain ⟨_ | ⟨s, rest⟩, root⟩ := c
    · exact hconst
    · exact isConst_of_bound (s := s.bind name v) hmark hfresh (get?_write _ name v)

end Succeeds

end Chain

/-! ## On a machine -/

namespace Run

variable {m : Machine} {name : String} {v : Value} {c : Chain}

/-- A run that reads a bound name goes on with its value. -/
theorem readVar_of_bound (h : m.chain.lookup? name = some v) : Run.readVar name m = .ok v m := by
  rw [readVar_eq]
  unfold onChain
  dsimp only
  rw [Chain.get_of_lookup? h]

/-- A write that succeeds leaves nothing but other scopes. -/
theorem writeChain_of_ok {f : Chain → Except Failure Chain} (h : f m.chain = .ok c) :
    Run.writeChain f m = .ok () { m with chain := c } := by
  rw [writeChain_eq]
  unfold onChain Chain.tryWrite
  rw [h]

theorem define_of_ok (h : m.chain.define name v = (c, .ok ())) :
    Run.define name v m = .ok () { m with chain := c } := by
  rw [define_eq]
  unfold onChain
  dsimp only
  rw [h]
  rfl

/-- A definition that fails may have changed the scopes before. -/
theorem define_of_error {e : Failure} (h : m.chain.define name v = (c, .error e)) :
    Run.define name v m = .error (.failed e) { m with chain := c } := by
  rw [define_eq]
  unfold onChain
  dsimp only
  rw [h]
  rfl

end Run

/-- **An assignment writes one slot and is read back there.**  In every chain of scopes, if an
assignment or a declaration of a name succeeds, then the name has the value afterwards, for a look
and for a read.  One variable of one scope has been written: for an assignment that of the slot which
the first scope within reach decides that marks the name GLOBAL or binds it, for a declaration that
of the innermost scope, or of the root if the innermost scope marks the name.  All other variables of
all scopes are as before, and so are the constants and the GLOBAL marks. -/
theorem assignment_writes_one_slot (c c' : Chain) (name : String) (v : Value) :
    (c.set name v = .ok c' →
      c.WritesOnly (c.assignedSlot name) name v c' ∧
        c'.lookup? name = some v ∧ c'.get name = .ok v) ∧
    (c.define name v = (c', .ok ()) →
      c.WritesOnly (c.definedSlot name) name v c' ∧
        c'.lookup? name = some v ∧ c'.get name = .ok v) := by
  refine ⟨fun h => ?_, fun h => ?_⟩
  · obtain ⟨hscopes, hlookup⟩ := Chain.set_eq_ok h
    refine ⟨.of_modify (f := id) (fun s => ⟨s.declared, rfl⟩) (c.assignedSlot_lt name) ?_,
      hlookup, Chain.get_of_lookup? hlookup⟩
    rw [List.modify_id]
    exact hscopes
  · obtain ⟨hscopes, hlookup⟩ := Chain.define_eq_ok h
    have hslot : c.definedSlot name < c.scopes.length := by
      rw [c.length_scopes]
      unfold Chain.definedSlot
      split
      · exact Nat.lt_succ_self _
      · exact Nat.succ_pos _
    exact ⟨.of_modify (fun s => ⟨_, rfl⟩) hslot hscopes, hlookup, Chain.get_of_lookup? hlookup⟩

/-- From a block inside a frame that binds the name, an assignment writes the variable of the frame
and not that of the root; a declaration where the name is marked GLOBAL writes that of the root. -/
theorem assignment_writes_one_slot_block :
    let block : Scope := { frame := false }
    let frame : Scope := { vars := [("X", .int 1)] }
    let root : Scope := { vars := [("X", .int 0)], consts := ["K"] }
    let marking : Scope := { globals := ["X"] }
    (∃ c', Chain.set ⟨[block, frame], root⟩ "X" (.int 5) = .ok c' ∧
      Chain.WritesOnly 1 "X" (.int 5) ⟨[block, frame], root⟩ c' ∧ c'.get "X" = .ok (.int 5)) ∧
    ∃ c', Chain.define ⟨[marking], root⟩ "X" (.int 5) = (c', .ok ()) ∧
      Chain.WritesOnly 1 "X" (.int 5) ⟨[marking], root⟩ c' ∧ c'.get "X" = .ok (.int 5) := by
  intro block frame root marking
  refine ⟨⟨⟨[block, { vars := [("X", .int 5)] }], root⟩, rfl, ?_⟩,
    ⟨⟨[marking.declare "X"], { vars := [("X", .int 5)], consts := ["K"] }⟩, rfl, ?_⟩⟩
  · have written := (assignment_writes_one_slot _ _ "X" (.int 5)).1
      (rfl : Chain.set ⟨[block, frame], root⟩ "X" (.int 5) = .ok _)
    exact ⟨written.1, written.2.2⟩
  · have written := (assignment_writes_one_slot _ _ "X" (.int 5)).2
      (rfl : Chain.define ⟨[marking], root⟩ "X" (.int 5) = (_, .ok ()))
    exact ⟨written.1, written.2.2⟩

end BasicScript
