import BasicScript.Proofs.Frame
import Mathlib.Data.List.Induction
import Mathlib.Data.List.Nodup

/-!
# Parameters

The parameters of a routine are bound in the frame of a call.  Each of them has a place in a list
with the argument that belongs to it, if there is one: the last named argument with its name, or else
the argument at its position.  All parameters that have an argument are bound first.  Then the others
get the values of their defaults, one after the other, so that a default sees all arguments and the
defaults before it, and reads through to the scopes around the frame for everything else.

* `argument?` is the argument of a parameter, `getElem?_placeArgs` says that it is put into the place
  of the parameter.
* `Scope.Filled`: what the frame of a call holds after some of the defaults.
* `BindingRun`: the machines that lie between the evaluations of the defaults.
* `parameters_bound` is the main statement.
-/

namespace BasicScript

/-! ## Arguments -/

/-- The argument of the parameter at a position: the last named argument with its name, or else the
one at this position. -/
def argument? (args : List Value) (named : List NamedValue) (i : Nat) (p : Binder) :
    Option Value :=
  (((named.filter (·.1 = p.name)).getLast?).map (·.2)).or args[i]?

section Arguments

variable {params : List Binder} (hdistinct : (params.map (·.name)).Nodup)
include hdistinct

/-- A parameter is found by its name. -/
theorem findIdx?_of_name {i : Nat} {p : Binder} (hp : params[i]? = some p) :
    params.findIdx? (·.name = p.name) = some i := by
  obtain ⟨hi, hpi⟩ := List.getElem?_eq_some_iff.mp hp
  refine List.findIdx?_eq_some_iff_getElem.mpr ⟨hi, by simp [hpi], fun j hji => ?_⟩
  have hj : j < params.length := Nat.lt_trans hji hi
  simp only [decide_eq_true_eq]
  intro hname
  have hsame : (params.map (·.name))[j]? = (params.map (·.name))[i]? := by
    rw [List.getElem?_map, List.getElem?_map, hp, List.getElem?_eq_getElem hj]
    exact congrArg some hname
  have heq : j = i := (List.getElem?_inj (by simpa using hj) hdistinct).mp hsame
  omega

/-- A named argument takes the place of its parameter and of no other one. -/
theorem getElem?_placeNamed {i : Nat} {p : Binder} (hp : params[i]? = some p)
    {places : List (Option Value)} (hplaces : places.length = params.length) (arg : NamedValue) :
    (placeNamed params places arg)[i]? =
      if arg.1 = p.name then some (some arg.2) else places[i]? := by
  have hi : i < places.length := hplaces ▸ (List.getElem?_eq_some_iff.mp hp).1
  unfold placeNamed
  by_cases hname : arg.1 = p.name
  · rw [if_pos hname, hname, findIdx?_of_name hdistinct hp]
    exact List.getElem?_set_self hi
  · rw [if_neg hname]
    split
    · next j hj =>
      obtain ⟨hlt, hfound, -⟩ := List.findIdx?_eq_some_iff_getElem.mp hj
      refine List.getElem?_set_ne ?_
      rintro rfl
      rw [List.getElem?_eq_getElem hlt] at hp
      rw [Option.some.inj hp] at hfound
      exact hname (of_decide_eq_true hfound).symm
    · rfl

end Arguments

/-- A named argument makes no more places. -/
theorem length_placeNamed (params : List Binder) (places : List (Option Value)) (arg : NamedValue) :
    (placeNamed params places arg).length = places.length := by
  unfold placeNamed
  split
  · exact List.length_set
  · rfl

/-- There is a place for each parameter. -/
theorem length_placeArgs (params : List Binder) (args : List Value) (named : List NamedValue) :
    (placeArgs params args named).length = params.length := by
  unfold placeArgs
  induction named using List.reverseRecOn with
  | nil => simp; omega
  | append_singleton rest arg ih => rw [List.foldl_append, List.foldl_cons, List.foldl_nil,
      length_placeNamed, ih]

/-- Every parameter has its argument in its place. -/
theorem getElem?_placeArgs {params : List Binder} (hdistinct : (params.map (·.name)).Nodup)
    (args : List Value) (named : List NamedValue) {i : Nat} {p : Binder}
    (hp : params[i]? = some p) :
    (placeArgs params args named)[i]? = some (argument? args named i p) := by
  induction named using List.reverseRecOn with
  | nil =>
    have hi : i < params.length := (List.getElem?_eq_some_iff.mp hp).1
    show ((args.take params.length).map some ++ _)[i]? = some args[i]?
    by_cases harg : i < args.length
    · rw [List.getElem?_append_left (by simp; omega), List.getElem?_map,
        List.getElem?_take_of_lt hi, List.getElem?_eq_getElem harg]
      rfl
    · rw [List.getElem?_append_right (by simp; omega), List.getElem?_replicate,
        if_pos (by simp; omega), List.getElem?_eq_none (by omega)]
  | append_singleton rest arg ih =>
    have hstep : placeArgs params args (rest ++ [arg]) =
        placeNamed params (placeArgs params args rest) arg := by
      unfold placeArgs
      rw [List.foldl_append, List.foldl_cons, List.foldl_nil]
    rw [hstep, getElem?_placeNamed hdistinct hp (length_placeArgs params args rest), ih]
    unfold argument?
    by_cases hname : arg.1 = p.name
    · rw [if_pos hname, List.filter_append, List.filter_cons_of_pos (by simpa using hname)]
      simp
    · rw [if_neg hname, List.filter_append, List.filter_cons_of_neg (by simpa using hname)]
      simp

/-- The parameters, each with its argument. -/
def placesOf (params : List Binder) (args : List Value) (named : List NamedValue) :
    List (Binder × Option Value) :=
  params.mapIdx fun i p => (p, argument? args named i p)

/-- At its place a parameter has its argument, if there is one. -/
theorem getElem?_placesOf {params : List Binder} (args : List Value) (named : List NamedValue)
    {i : Nat} {p : Binder} (hp : params[i]? = some p) :
    (placesOf params args named)[i]? = some (p, argument? args named i p) := by
  unfold placesOf
  rw [List.getElem?_mapIdx, hp]
  rfl

/-- The places are those of the parameters. -/
theorem names_placesOf (params : List Binder) (args : List Value) (named : List NamedValue) :
    (placesOf params args named).map (·.1.name) = params.map (·.name) := by
  refine List.ext_getElem? fun i => ?_
  unfold placesOf
  rw [List.getElem?_map, List.getElem?_map, List.getElem?_mapIdx]
  cases params[i]? with
  | none => rfl
  | some p => rfl

/-- Arguments are placed at the parameters that they belong to. -/
theorem zip_placeArgs {params : List Binder} (hdistinct : (params.map (·.name)).Nodup)
    (args : List Value) (named : List NamedValue) :
    params.zip (placeArgs params args named) = placesOf params args named := by
  refine List.ext_getElem? fun i => ?_
  unfold placesOf
  rw [List.getElem?_mapIdx]
  cases hp : params[i]? with
  | none =>
    refine List.getElem?_eq_none ?_
    rw [List.length_zip, length_placeArgs, Nat.min_self]
    exact List.getElem?_eq_none_iff.mp hp
  | some p =>
    exact List.getElem?_zip_eq_some.mpr ⟨hp, getElem?_placeArgs hdistinct args named hp⟩

/-- Arguments beyond the last parameter and named arguments without a parameter have no effect. -/
theorem placesOf_relevant (params : List Binder) (args : List Value) (named : List NamedValue) :
    placesOf params (args.take params.length)
      (named.filter fun arg => params.any (·.name = arg.1)) = placesOf params args named := by
  unfold placesOf
  refine List.mapIdx_eq_mapIdx_iff.mpr fun i hi => ?_
  have hnamed : (named.filter fun arg => params.any (·.name = arg.1)).filter
      (·.1 = params[i].name) = named.filter (·.1 = params[i].name) := by
    rw [List.filter_filter]
    refine List.filter_congr fun arg _ => ?_
    by_cases hname : arg.1 = params[i].name
    · have hany : params.any (·.name = arg.1) = true :=
        List.any_eq_true.mpr ⟨params[i], List.getElem_mem hi, decide_eq_true hname.symm⟩
      rw [hany, Bool.and_true]
    · simp [hname]
  unfold argument?
  rw [hnamed, List.getElem?_take_of_lt hi]

/-! ## The frame -/

/-- The frame of a call when the defaults at the first `k` places have been dealt with: the names
with an argument have it, the names without one have the value that was found for them, and nothing
is known of the others but what was known before. -/
structure Scope.Filled (places : List (Binder × Option Value)) (value : Nat → Value) (k : Nat)
    (s s' : Scope) : Prop where
  given : ∀ (i : Nat) (p : Binder) (v : Value), places[i]? = some (p, some v) →
    Table.get? s'.vars p.name.name = some v
  default : ∀ (i : Nat) (p : Binder), i < k → places[i]? = some (p, none) →
    Table.get? s'.vars p.name.name = some (value i)
  others : ∀ x, (∀ (i : Nat) (p : Binder) (arg : Option Value), places[i]? = some (p, arg) →
      p.name.name = x → arg = none ∧ k ≤ i) →
    Table.get? s'.vars x = Table.get? s.vars x ∧ (x ∈ s'.declared ↔ x ∈ s.declared)
  rest : s' = { s with vars := s'.vars, declared := s'.declared }

/-- The arguments are bound all at once. -/
theorem bindPlaced_eq {places : List (Binder × Option Value)}
    (hdistinct : (places.map (·.1.name)).Nodup) (s : Scope) (outer : List Scope) (root : Scope) :
    ∃ s', bindPlaced ⟨s :: outer, root⟩ places = ⟨s' :: outer, root⟩ ∧
      (∀ p v, (p, some v) ∈ places → Table.get? s'.vars p.name.name = some v) ∧
      (∀ x, (∀ p v, (p, some v) ∈ places → p.name.name ≠ x) →
        Table.get? s'.vars x = Table.get? s.vars x ∧ (x ∈ s'.declared ↔ x ∈ s.declared)) ∧
      s' = { s with vars := s'.vars, declared := s'.declared } := by
  induction places generalizing s with
  | nil => exact ⟨s, rfl, nofun, fun _ _ => ⟨rfl, Iff.rfl⟩, rfl⟩
  | cons place rest ih =>
    obtain ⟨q, arg⟩ := place
    obtain ⟨hfresh, hlast⟩ := List.nodup_cons.mp hdistinct
    cases arg with
    | none =>
      obtain ⟨s', hbind, hgiven, hothers, hrest⟩ := ih hlast s
      refine ⟨s', hbind, fun p v hp => ?_, fun x hx => ?_, hrest⟩
      · rcases List.mem_cons.mp hp with heq | hp
        · cases heq
        · exact hgiven p v hp
      · exact hothers x fun p v hp => hx p v (List.mem_cons_of_mem _ hp)
    | some w =>
      obtain ⟨s', hbind, hgiven, hothers, hrest⟩ := ih hlast (s.bind q.name.name w)
      refine ⟨s', hbind, fun p v hp => ?_, fun x hx => ?_, hrest⟩
      · rcases List.mem_cons.mp hp with heq | hp
        · cases heq
          -- No later parameter has the same name.
          have hapart : ∀ p v, (p, some v) ∈ rest → p.name.name ≠ q.name.name := by
            intro p v hp heq
            refine hfresh (List.mem_map.mpr ⟨(p, some v), hp, Ident.ext heq⟩)
          have hlater := hothers q.name.name hapart
          exact hlater.1.trans (Table.get?_insert_self _ _ _)
        · exact hgiven p v hp
      · have hne : q.name.name ≠ x := hx q w List.mem_cons_self
        have hlater := hothers x fun p v hp => hx p v (List.mem_cons_of_mem _ hp)
        refine ⟨hlater.1.trans (Table.get?_insert_of_ne _ _ hne), hlater.2.trans ?_⟩
        exact ⟨fun hmem => (Scope.mem_addName.mp hmem).resolve_left hne.symm,
          fun hmem => Scope.mem_addName.mpr (.inr hmem)⟩

/-- All parameters that have an argument are bound before the first default. -/
theorem exists_filled {places : List (Binder × Option Value)}
    (hdistinct : (places.map (·.1.name)).Nodup) {m : Machine} {frame : Scope} {outer : List Scope}
    (hframe : m.chain.inner = frame :: outer) :
    ∃ s, Run.modifyChain (bindPlaced · places) m =
        .ok () { m with chain := ⟨s :: outer, m.chain.root⟩ } ∧
      ∀ value, frame.Filled places value 0 s := by
  obtain ⟨s, hplaced, hgiven, hothers, hrest⟩ := bindPlaced_eq hdistinct frame outer m.chain.root
  refine ⟨s, ?_, fun value => ⟨fun i p v hi => ?_, nofun, fun x hx => ?_, hrest⟩⟩
  · have hchain : m.chain = ⟨frame :: outer, m.chain.root⟩ := by rw [← hframe]
    show EStateM.Result.ok () { m with chain := bindPlaced m.chain places } = _
    rw [hchain, hplaced]
  · exact hgiven p v (List.mem_of_getElem? hi)
  · refine hothers x fun p v hmem hname => ?_
    obtain ⟨i, hi⟩ := List.mem_iff_getElem?.mp hmem
    cases (hx i p (some v) hi hname).1

/-! ## Defaults -/

/-- The evaluations of the defaults at the first places, up to a place where they stop.  Each one
starts with the machine that the one before it has left, with the value bound in the frame; a place
with an argument is passed over. -/
structure DefaultsRun (g : Engine) (places : List (Binder × Option Value)) (state : Nat → Machine)
    (value : Nat → Value) (stop : Nat) : Prop where
  given : ∀ k < stop, ∀ p v, places[k]? = some (p, some v) →
    value k = v ∧ state (k + 1) = state k
  default : ∀ k < stop, ∀ p, places[k]? = some (p, none) →
    ∃ m, g.eval? p.init (state k) = .ok (value k) m ∧
      state (k + 1) = { m with chain := m.chain.bind p.name.name (value k) }

/-- A first place that is dealt with goes before the places behind it. -/
theorem DefaultsRun.cons {g : Engine} {p : Binder} {arg : Option Value}
    {rest : List (Binder × Option Value)} {state : Nat → Machine} {value : Nat → Value} {stop : Nat}
    (run : DefaultsRun g rest state value stop) {m : Machine} {v : Value}
    (hgiven : ∀ w, arg = some w → v = w ∧ state 0 = m)
    (hdefault : arg = none → ∃ m₁, g.eval? p.init m = .ok v m₁ ∧
      state 0 = { m₁ with chain := m₁.chain.bind p.name.name v }) :
    DefaultsRun g ((p, arg) :: rest) (fun k => k.casesOn m state) (fun k => k.casesOn v value)
      (stop + 1) := by
  refine ⟨fun k hk q w hplace => ?_, fun k hk q hplace => ?_⟩
  · cases k with
    | zero =>
      cases hplace
      exact hgiven w rfl
    | succ k => exact run.given k (Nat.lt_of_succ_lt_succ hk) q w hplace
  · cases k with
    | zero =>
      cases hplace
      exact hdefault rfl
    | succ k => exact run.default k (Nat.lt_of_succ_lt_succ hk) q hplace

/-- The defaults are evaluated one after the other until one of them has no value. -/
theorem exists_defaultsRun (g : Engine) (places : List (Binder × Option Value)) (m : Machine) :
    ∃ state value stop, state 0 = m ∧ stop ≤ places.length ∧
      DefaultsRun g places state value stop ∧
      (stop = places.length ∧ g.bindDefaults places m = .ok () (state stop) ∨
        ∃ p halt m₁, places[stop]? = some (p, none) ∧
          g.eval? p.init (state stop) = .error halt m₁ ∧
          g.bindDefaults places m = .error halt m₁) := by
  induction places generalizing m with
  | nil =>
    exact ⟨fun _ => m, fun _ => .nil, 0, rfl, Nat.le_refl 0, ⟨nofun, nofun⟩, .inl ⟨rfl, rfl⟩⟩
  | cons place rest ih =>
    obtain ⟨p, arg⟩ := place
    cases arg with
    | some w =>
      obtain ⟨state, value, stop, hstart, hstop, run, hends⟩ := ih m
      refine ⟨fun k => k.casesOn m state, fun k => k.casesOn w value, stop + 1, rfl,
        Nat.succ_le_succ hstop, run.cons ?_ nofun, ?_⟩
      · intro v hv
        exact ⟨Option.some.inj hv, hstart⟩
      rcases hends with ⟨hall, hok⟩ | hfails
      · exact .inl ⟨congrArg Nat.succ hall, hok⟩
      · exact .inr hfails
    | none =>
      cases heval : g.eval? p.init m with
      | ok v m₁ =>
        obtain ⟨state, value, stop, hstart, hstop, run, hends⟩ :=
          ih { m₁ with chain := m₁.chain.bind p.name.name v }
        have hfirst : g.bindDefaults ((p, none) :: rest) m =
            g.bindDefaults rest { m₁ with chain := m₁.chain.bind p.name.name v } :=
          Run.bind_of_ok heval
        refine ⟨fun k => k.casesOn m state, fun k => k.casesOn v value, stop + 1, rfl,
          Nat.succ_le_succ hstop, run.cons nofun fun _ => ⟨m₁, heval, hstart⟩, ?_⟩
        rw [hfirst]
        rcases hends with ⟨hall, hok⟩ | hfails
        · exact .inl ⟨congrArg Nat.succ hall, hok⟩
        · exact .inr hfails
      | error halt m₁ =>
        refine ⟨fun _ => m, fun _ => .nil, 0, rfl, Nat.zero_le _, ⟨nofun, nofun⟩, .inr ?_⟩
        exact ⟨p, halt, m₁, rfl, heval, Run.bind_of_error heval⟩

/-- Defaults leave all scopes but the root alone. -/
theorem inner_of_eval? {cx : Context} {n : Nat} {init : Option Expr} {m m₁ : Machine} {v : Value}
    (h : (engine cx n).eval? init m = .ok v m₁) : m₁.chain.inner = m.chain.inner := by
  cases init with
  | none =>
    cases h
    rfl
  | some e =>
    have hlax := Rule.globalsAmong_lax
    have heffect := (effect_eval cx n (.of_lax hlax) (hlax.expr e) : m.chain.Effect _ .expr _).1
    have hafter : (eval cx n e).after m = m₁ := by
      have heval : eval cx n e m = .ok v m₁ := h
      unfold Run.after
      rw [heval]
      rfl
    rw [hafter] at heffect
    exact heffect

section Frames

variable {places : List (Binder × Option Value)} {value : Nat → Value} {frame s : Scope}

/-- A place with an argument is dealt with from the beginning. -/
theorem Scope.Filled.pass {k : Nat} (h : frame.Filled places value k s) {p : Binder} {v : Value}
    (hk : places[k]? = some (p, some v)) : frame.Filled places value (k + 1) s where
  given := h.given
  default i q hi hplace := by
    have hne : i ≠ k := by
      rintro rfl
      rw [hplace] at hk
      cases hk
    exact h.default i q (by omega) hplace
  others x hx := h.others x fun i q arg hplace hq => by
    obtain ⟨hnone, hle⟩ := hx i q arg hplace hq
    exact ⟨hnone, by omega⟩
  rest := h.rest

variable (hdistinct : (places.map (·.1.name)).Nodup)
include hdistinct

/-- The places of two parameters with one name are the same. -/
theorem place_of_name {i j : Nat} {p q : Binder} {a b : Option Value}
    (hi : places[i]? = some (p, a)) (hj : places[j]? = some (q, b))
    (hname : p.name.name = q.name.name) : i = j := by
  have hsame : (places.map (·.1.name))[i]? = (places.map (·.1.name))[j]? := by
    rw [List.getElem?_map, List.getElem?_map, hi, hj]
    exact congrArg some (Ident.ext hname)
  have hlt := (List.getElem?_eq_some_iff.mp hi).1
  exact (List.getElem?_inj (by simpa using hlt) hdistinct).mp hsame

/-- A default is bound in the frame. -/
theorem Scope.Filled.bind {k : Nat} (h : frame.Filled places value k s) {p : Binder}
    (hk : places[k]? = some (p, none)) :
    frame.Filled places value (k + 1) (s.bind p.name.name (value k)) := by
  have hother : ∀ (i : Nat) (q : Binder) (arg : Option Value), places[i]? = some (q, arg) →
      i ≠ k → p.name.name ≠ q.name.name := by
    intro i q arg hplace hne heq
    exact hne (place_of_name hdistinct hk hplace heq).symm
  refine ⟨fun i q v hplace => ?_, fun i q hi hplace => ?_, fun x hx => ?_, ?_⟩
  · have hne : i ≠ k := by
      rintro rfl
      rw [hplace] at hk
      cases hk
    exact (Table.get?_insert_of_ne _ _ (hother i q _ hplace hne)).trans (h.given i q v hplace)
  · by_cases hik : i = k
    · subst hik
      obtain ⟨rfl, -⟩ := Prod.mk.inj (Option.some.inj (hplace.symm.trans hk))
      exact Table.get?_insert_self _ _ _
    · have hbefore := h.default i q (by omega) hplace
      exact (Table.get?_insert_of_ne _ _ (hother i q _ hplace hik)).trans hbefore
  · have hne : p.name.name ≠ x := by
      intro heq
      have hle := (hx k p none hk heq).2
      omega
    obtain ⟨hvars, hdeclared⟩ := h.others x fun i q arg hplace hq => by
      obtain ⟨hnone, hle⟩ := hx i q arg hplace hq
      exact ⟨hnone, by omega⟩
    refine ⟨(Table.get?_insert_of_ne _ _ hne).trans hvars, Iff.trans ?_ hdeclared⟩
    exact ⟨fun hmem => (Scope.mem_addName.mp hmem).resolve_left hne.symm,
      fun hmem => Scope.mem_addName.mpr (.inr hmem)⟩
  · rw [h.rest]
    rfl

/-- **What the frame holds before every default**, and after the last one. -/
theorem DefaultsRun.filled {cx : Context} {n : Nat} {state : Nat → Machine} {stop : Nat}
    (run : DefaultsRun (engine cx n) places state value stop) (hstop : stop ≤ places.length)
    {outer : List Scope} (hstart : (state 0).chain.inner = s :: outer)
    (hfilled : frame.Filled places value 0 s) {k : Nat} (hk : k ≤ stop) :
    ∃ s, (state k).chain.inner = s :: outer ∧ frame.Filled places value k s := by
  induction k with
  | zero => exact ⟨s, hstart, hfilled⟩
  | succ k ih =>
    obtain ⟨s, hinner, hfilled⟩ := ih (by omega)
    have hlt : k < places.length := by omega
    obtain ⟨⟨p, arg⟩, hplace⟩ : ∃ place, places[k]? = some place :=
      ⟨places[k], List.getElem?_eq_getElem hlt⟩
    cases arg with
    | some v =>
      obtain ⟨-, hstate⟩ := run.given k hk p v hplace
      exact ⟨s, hstate ▸ hinner, hfilled.pass hplace⟩
    | none =>
      obtain ⟨m, heval, hstate⟩ := run.default k hk p hplace
      have hm : m.chain.inner = s :: outer := (inner_of_eval? heval).trans hinner
      refine ⟨s.bind p.name.name (value k), ?_, hfilled.bind hdistinct hplace⟩
      rw [hstate]
      unfold Chain.bind Chain.modifyTop
      dsimp only
      rw [hm]

end Frames

/-! ## Parameters -/

/-- First all arguments are bound, and then the defaults of the other parameters. -/
theorem Engine.bindParams_eq (g : Engine) {params : List Binder}
    (hdistinct : (params.map (·.name)).Nodup) (args : List Value) (named : List NamedValue) :
    g.bindParams params args named = (do
      Run.modifyChain (bindPlaced · (placesOf params args named))
      g.bindDefaults (placesOf params args named)) := by
  unfold Engine.bindParams
  rw [zip_placeArgs hdistinct]

/-- **Parameters are bound by position, by name, and by default.**  In any frame, let a routine have
parameters with pairwise distinct names, and take any positional and named arguments.

* Each parameter has the place of the last named argument with its name, or else of the one at its
  position.  The arguments are bound, and then the defaults of the other parameters are evaluated in
  their order, each in a machine whose frame holds all arguments and the values of the defaults
  before it, and nothing of those behind it.
* Either all of them have values; then the binding succeeds, and the frame holds for every parameter
  its argument, or else the value of its default, the empty value where there is none.
* Or one of them halts; then the binding halts so too, with the machine that this default has left.
* Arguments beyond the last parameter and named arguments without a parameter have no effect. -/
theorem parameters_bound (cx : Context) (n : Nat) (m : Machine) (frame : Scope)
    (outer : List Scope) (hframe : m.chain.inner = frame :: outer) (params : List Binder)
    (hdistinct : (params.map (·.name)).Nodup) (args : List Value) (named : List NamedValue) :
    let g := engine cx n
    let places := placesOf params args named
    (∃ state value stop, stop ≤ params.length ∧
      (∃ s, state 0 = { m with chain := ⟨s :: outer, m.chain.root⟩ }) ∧
      DefaultsRun g places state value stop ∧
      (∀ k ≤ stop, ∃ s, (state k).chain.inner = s :: outer ∧ frame.Filled places value k s) ∧
      (stop = params.length ∧ g.bindParams params args named m = .ok () (state stop) ∧
          (∀ i p, params[i]? = some p →
            Table.get? (state stop).chain.top.vars p.name.name = some (value i)) ∨
        ∃ p halt m₁, places[stop]? = some (p, none) ∧
          g.eval? p.init (state stop) = .error halt m₁ ∧
          g.bindParams params args named m = .error halt m₁)) ∧
    g.bindParams params args named =
      g.bindParams params (args.take params.length)
        (named.filter fun arg => params.any (·.name = arg.1)) := by
  intro g places
  have hlength : places.length = params.length := List.length_mapIdx
  have hnames : (places.map (·.1.name)).Nodup := by
    rw [names_placesOf]
    exact hdistinct
  refine ⟨?_, ?_⟩
  · obtain ⟨s, hplaced, hfilled₀⟩ := exists_filled hnames hframe
    obtain ⟨state, value, stop, hfirst, hstop, run, hends⟩ :=
      exists_defaultsRun g places { m with chain := ⟨s :: outer, m.chain.root⟩ }
    have hfilled : ∀ k ≤ stop, ∃ s, (state k).chain.inner = s :: outer ∧
        frame.Filled places value k s := fun k hk =>
      run.filled hnames hstop (by rw [hfirst]) (hfilled₀ value) hk
    refine ⟨state, value, stop, hlength ▸ hstop, ⟨s, hfirst⟩, run, hfilled, ?_⟩
    rw [g.bindParams_eq hdistinct, Run.bind_of_ok hplaced]
    rcases hends with ⟨hall, hok⟩ | hfails
    · refine .inl ⟨hall.trans hlength, hok, fun i p hp => ?_⟩
      obtain ⟨s', hinner, hheld⟩ := hfilled stop (Nat.le_refl stop)
      have htop : (state stop).chain.top = s' := by
        unfold Chain.top
        rw [hinner]
        rfl
      have hi : i < stop := by
        rw [hall, hlength]
        exact (List.getElem?_eq_some_iff.mp hp).1
      have hplace := getElem?_placesOf args named hp
      rw [htop]
      cases harg : argument? args named i p with
      | some v =>
        rw [harg] at hplace
        rw [(run.given i hi p v hplace).1]
        exact hheld.given i p v hplace
      | none =>
        rw [harg] at hplace
        exact hheld.default i p hi hplace
    · exact .inr hfails
  · rw [g.bindParams_eq hdistinct, g.bindParams_eq hdistinct, placesOf_relevant]

/-- Parameters whose defaults refer to a parameter behind them, to a default before them and to a
variable of the caller. -/
def entwinedParams : List Binder :=
  [⟨.ofString "w", none⟩, ⟨.ofString "x", some (.var (.ofString "y"))⟩, ⟨.ofString "y", none⟩,
    ⟨.ofString "z", some (.array [.var (.ofString "x"), .var (.ofString "v")])⟩]

/-- Named arguments, of which one comes twice, one has no parameter and one stands at the position of
another argument. -/
def repeatedNames : List NamedValue :=
  [(.ofString "y", .int 5), (.ofString "q", .int 1), (.ofString "y", .int 7),
    (.ofString "w", .int 3)]

/-- A machine in a fresh frame inside the frame of a caller. -/
def calledMachine : Machine :=
  { chain := ⟨[{}, { vars := [("V", .int 2), ("Y", .int 0)] }], {}⟩ }

/-- Of several values that are named for a parameter it gets the last one, and a default sees what
has been bound before it and what the caller has. -/
theorem parameters_bound_entwined :
    calledMachine.chain.inner = {} :: [{ vars := [("V", .int 2), ("Y", .int 0)] }] ∧
    (entwinedParams.map (·.name)).Nodup ∧
    ∃ state value,
      DefaultsRun (engine {} 9) (placesOf entwinedParams [.int 0] repeatedNames) state value 4 ∧
      (engine {} 9).bindParams entwinedParams [.int 0] repeatedNames calledMachine =
        .ok () (state 4) ∧
      value 0 = .int 3 ∧ value 1 = .int 7 ∧ value 2 = .int 7 ∧
      value 3 = .array [.int 7, .int 2] := by
  have hframe :
      calledMachine.chain.inner = {} :: [{ vars := [("V", .int 2), ("Y", .int 0)] }] := rfl
  have hdistinct : (entwinedParams.map (·.name)).Nodup := by decide
  obtain ⟨⟨state, value, stop, -, -, run, -, hends⟩, -⟩ :=
    parameters_bound {} 9 calledMachine _ _ hframe entwinedParams hdistinct [.int 0] repeatedNames
  refine ⟨hframe, hdistinct, state, value, ?_⟩
  obtain ⟨m', hok, hw, hx, hy, hz⟩ :
      ∃ m', (engine {} 9).bindParams entwinedParams [.int 0] repeatedNames calledMachine =
          .ok () m' ∧
        Table.get? m'.chain.top.vars "W" = some (.int 3) ∧
        Table.get? m'.chain.top.vars "X" = some (.int 7) ∧
        Table.get? m'.chain.top.vars "Y" = some (.int 7) ∧
        Table.get? m'.chain.top.vars "Z" = some (.array [.int 7, .int 2]) :=
    ⟨_, by rfl, by rfl, by rfl, by rfl, by rfl⟩
  rcases hends with ⟨rfl, hrun, hbound⟩ | ⟨p, halt, m₁, -, -, herror⟩
  · have hstate : m' = state 4 := by
      rw [hok] at hrun
      cases hrun
      rfl
    rw [hstate] at hw hx hy hz
    refine ⟨run, hrun, ?_, ?_, ?_, ?_⟩
    · exact Option.some.inj ((hbound 0 _ rfl).symm.trans hw)
    · exact Option.some.inj ((hbound 1 _ rfl).symm.trans hx)
    · exact Option.some.inj ((hbound 2 _ rfl).symm.trans hy)
    · exact Option.some.inj ((hbound 3 _ rfl).symm.trans hz)
  · rw [hok] at herror
    cases herror

end BasicScript
