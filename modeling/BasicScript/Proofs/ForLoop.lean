import BasicScript.Proofs.Assignment
import BasicScript.Proofs.Beginning

/-!
# FOR loops over integers

A FOR loop from one integer to another goes through an arithmetic progression.  Its variable goes on
by addition as a program does it, though, which leaves the integers where the sum does not fit 64
bits, and a double is compared with the end of the loop after the end has been rounded.  So all terms
of the progression are visited, but a loop whose end is near the greatest or the least integer may go
on after the last of them, and may never end.

* `CountedLoop` is such a loop; `count` and `term` give its progression, `value` what its variable
  holds before each round.
* `CountedLoop.Steady`: the body always ends and leaves the variable alone.
* `CountedLoop.Visits`: the rounds of a loop, with the value of the variable in each.
* `CountedLoop.Steady.runsOnce` is what one round does and `CountedLoop.Steady.visits` what a number
  of rounds does.
* `for_visits_progression` says when a loop ends after the last term, and what it does otherwise.
-/

namespace BasicScript

/-! ## Sums of integers -/

namespace Value

variable {a b r : Int64}

/-- A sum of two integers that fits in 64 bits is exact. -/
theorem add_of_fits (h : Word.ofInt? (a.toInt + b.toInt) = some r) :
    (Value.int a).binary .add (.int b) = .ok (.int r) := by
  show arithmetic (· + ·) (· + ·) (.int a) (.int b) = _
  unfold arithmetic
  dsimp only
  rw [h]

/-- A sum that does not fit 64 bits is that of the rounded integers. -/
theorem add_of_overflow (h : Word.ofInt? (a.toInt + b.toInt) = none) :
    (Value.int a).binary .add (.int b) =
      .ok (.float (Double.ofInt a.toInt + Double.ofInt b.toInt)) := by
  show arithmetic (· + ·) (· + ·) (.int a) (.int b) = _
  unfold arithmetic
  dsimp only
  rw [h]
  rfl

end Value

/-- A FOR loop over integers. -/
structure CountedLoop where
  var : Ident
  start : Int64
  last : Int64
  step : Int64
  step_ne_zero : step ≠ 0
  body : List Stmt

namespace CountedLoop

/-- The loop as a statement. -/
def stmt (L : CountedLoop) : Stmt :=
  .forLoop L.var (.int L.start) (.int L.last) (some (.int L.step)) L.body

/-! ## The progression -/

/-- The loop counts upwards. -/
def ascending (L : CountedLoop) : Bool :=
  0 < L.step.toInt

/-- An integer does not lie beyond the end of the loop. -/
def covers (L : CountedLoop) (n : Int) : Bool :=
  if L.ascending then n ≤ L.last.toInt else L.last.toInt ≤ n

/-- A term of the progression. -/
def term (L : CountedLoop) (k : Nat) : Int :=
  L.start.toInt + k * L.step.toInt

/-- How many terms there are up to the end. -/
def count (L : CountedLoop) : Nat :=
  if L.covers L.start.toInt then
    ((L.last.toInt - L.start.toInt).fdiv L.step.toInt).toNat + 1
  else 0

section Progression

variable (L : CountedLoop)

/-- The step of such a loop is not zero. -/
theorem step_toInt_ne_zero : L.step.toInt ≠ 0 := by
  intro hzero
  exact L.step_ne_zero (Int64.toInt_inj.mp (by rw [hzero]; rfl))

/-- The progression begins with the start of the loop. -/
theorem term_zero : L.term 0 = L.start.toInt := by
  simp [term]

/-- The progression goes on by the step. -/
theorem term_succ (k : Nat) : L.term (k + 1) = L.term k + L.step.toInt := by
  unfold term
  rw [Int.natCast_succ, Int.add_mul, Int.one_mul, Int.add_assoc]

/-- The multiples of a positive integer up to a bound, counted from zero. -/
theorem mul_le_iff_lt {d : Int} (hd : 0 < d) (bound : Int) (k : Nat) :
    k * d ≤ bound ↔ k < if 0 ≤ bound then (bound / d).toNat + 1 else 0 := by
  have hle : (k : Int) ≤ bound / d ↔ k * d ≤ bound := Int.le_ediv_iff_mul_le hd
  have hk : 0 ≤ k * d := Int.mul_nonneg (Int.natCast_nonneg k) (Int.le_of_lt hd)
  split
  · next hbound =>
    have hquotient : 0 ≤ bound / d := Int.ediv_nonneg hbound (Int.le_of_lt hd)
    omega
  · omega

/-- **The terms before the count are those up to the end.** -/
theorem covers_term_iff (k : Nat) : L.covers (L.term k) = true ↔ k < L.count := by
  have hstep := L.step_toInt_ne_zero
  unfold count covers ascending term
  generalize L.step.toInt = d at hstep ⊢
  generalize L.start.toInt = a
  generalize L.last.toInt = b
  by_cases hup : 0 < d
  · have hfloor : (b - a).fdiv d = (b - a) / d :=
      Int.fdiv_eq_ediv_of_nonneg _ (Int.le_of_lt hup)
    have hmultiples := mul_le_iff_lt hup (b - a) k
    simp only [hup, decide_true, if_true, decide_eq_true_eq, hfloor]
    simp only [Int.sub_nonneg] at hmultiples
    rw [← hmultiples]
    omega
  · have hdown : 0 < -d := by omega
    have hfloor : (b - a).fdiv d = (a - b) / -d := by
      rw [← Int.neg_fdiv_neg, Int.neg_sub]
      exact Int.fdiv_eq_ediv_of_nonneg _ (Int.le_of_lt hdown)
    have hmultiples := mul_le_iff_lt hdown (a - b) k
    simp only [hup, decide_false, if_false, decide_eq_true_eq, hfloor, Bool.false_eq_true]
    simp only [Int.sub_nonneg, Int.mul_neg] at hmultiples
    rw [← hmultiples]
    omega

/-- A term up to the end fits 64 bits. -/
theorem fits_of_lt_count {k : Nat} (h : k < L.count) :
    ∃ w : Int64, w.toInt = L.term k ∧ Word.ofInt? (L.term k) = some w := by
  have hcovers := (L.covers_term_iff k).mpr h
  have hfits : Word.ofInt? (L.term k) ≠ none := by
    rw [ne_eq, Word.ofInt?_eq_none_iff]
    have hstart := L.start.le_toInt
    have hstart' := L.start.toInt_lt
    have hlast := L.last.le_toInt
    have hlast' := L.last.toInt_lt
    unfold covers ascending term at *
    unfold Word.least Word.greatest
    -- The term lies between the start and the end.
    by_cases hup : 0 < L.step.toInt
    · have hk : 0 ≤ k * L.step.toInt := Int.mul_nonneg (Int.natCast_nonneg k) (Int.le_of_lt hup)
      simp only [hup, decide_true, if_true, decide_eq_true_eq] at hcovers
      omega
    · have hk : k * L.step.toInt ≤ 0 :=
        Int.mul_nonpos_of_nonneg_of_nonpos (Int.natCast_nonneg k) (by omega)
      simp only [hup, decide_false, if_false, decide_eq_true_eq, Bool.false_eq_true] at hcovers
      omega
  obtain ⟨w, hw⟩ := Option.ne_none_iff_exists'.mp hfits
  exact ⟨w, Word.toInt_of_ofInt?_eq_some hw, hw⟩

end Progression

/-! ## The values of the variable -/

/-- A value one step further. -/
def next (L : CountedLoop) (v : Value) : Value :=
  match v.binary .add (.int L.step) with
  | .ok w => w
  | .error _ => .nil

/-- The value of the variable before a round. -/
def value (L : CountedLoop) : Nat → Value
  | 0 => .int L.start
  | k + 1 => L.next (L.value k)

/-- The values of the variable in a number of rounds. -/
def values (L : CountedLoop) (n : Nat) : List Value :=
  (List.range n).map L.value

/-- The loop does not end before a round in which the variable has this value. -/
def goesOn (L : CountedLoop) (v : Value) : Bool :=
  Engine.inRange L.ascending v (.int L.last)

section Values

variable (L : CountedLoop)

/-- The next value of the variable is the sum with the step. -/
theorem next_of_add {v w : Value} (h : v.binary .add (.int L.step) = .ok w) : L.next v = w := by
  unfold next
  rw [h]

/-- Of a number there is always a next one. -/
theorem add_step {v : Value} (h : v.isNumeric = true) :
    v.binary .add (.int L.step) = .ok (L.next v) ∧ (L.next v).isNumeric = true := by
  cases v with
  | int w =>
    cases hfits : Word.ofInt? (w.toInt + L.step.toInt) with
    | some r =>
      have hadd := Value.add_of_fits hfits
      rw [L.next_of_add hadd]
      exact ⟨hadd, rfl⟩
    | none =>
      have hadd := Value.add_of_overflow hfits
      rw [L.next_of_add hadd]
      exact ⟨hadd, rfl⟩
  | float x => exact ⟨rfl, rfl⟩
  | nil => cases h
  | bool b => cases h
  | str s => cases h
  | array items => cases h
  | map fields => cases h

/-- Each value of the variable is a number. -/
theorem isNumeric_value (k : Nat) : (L.value k).isNumeric = true := by
  induction k with
  | zero => rfl
  | succ k ih => exact (L.add_step ih).2

/-- One round more is one value more. -/
theorem values_succ (n : Nat) : L.values (n + 1) = L.values n ++ [L.value n] := by
  simp [values, List.range_succ]

/-- An integer is compared with the end as an integer. -/
theorem goesOn_int (w : Int64) : L.goesOn (.int w) = L.covers w.toInt := by
  unfold goesOn covers Engine.inRange Value.compare?
  dsimp only
  rcases Int.lt_trichotomy w.toInt L.last.toInt with hlt | heq | hgt
  · rw [Int.compare_eq_lt.mpr hlt]
    cases L.ascending <;> simp [Int.le_of_lt hlt, hlt]
  · rw [heq, Int.compare_eq_eq.mpr rfl]
    cases L.ascending <;> simp
  · rw [Int.compare_eq_gt.mpr hgt]
    cases L.ascending <;> simp [Int.le_of_lt hgt, hgt]

/-- The variable holds the terms of the progression, one after the other, as long as they fit. -/
theorem value_of_fits {k : Nat} (hk : k ≤ L.count) {w : Int64}
    (hfits : Word.ofInt? (L.term k) = some w) : L.value k = .int w := by
  induction k generalizing w with
  | zero =>
    rw [L.term_zero, Word.ofInt?_toInt] at hfits
    cases hfits
    rfl
  | succ k ih =>
    obtain ⟨w₁, hw₁, hfits₁⟩ := L.fits_of_lt_count hk
    rw [L.term_succ, ← hw₁] at hfits
    show L.next (L.value k) = _
    rw [ih (Nat.le_of_succ_le hk) hfits₁]
    exact L.next_of_add (Value.add_of_fits hfits)

/-- The loop goes on as long as there are terms left. -/
theorem goesOn_of_lt_count {k : Nat} (h : k < L.count) : L.goesOn (L.value k) = true := by
  obtain ⟨w, hw, hfits⟩ := L.fits_of_lt_count h
  rw [L.value_of_fits (Nat.le_of_lt h) hfits, L.goesOn_int, hw]
  exact (L.covers_term_iff k).mpr h

/-- If the first term beyond the end fits, the loop ends there. -/
theorem goesOn_count_of_fits (h : (Word.ofInt? (L.term L.count)).isSome) :
    L.goesOn (L.value L.count) = false := by
  obtain ⟨w, hfits⟩ := Option.isSome_iff_exists.mp h
  rw [L.value_of_fits (Nat.le_refl _) hfits, L.goesOn_int, Word.toInt_of_ofInt?_eq_some hfits,
    ← Bool.not_eq_true, L.covers_term_iff]
  exact Nat.lt_irrefl _

/-- If it does not fit, the variable holds a double. -/
theorem value_count_of_overflow (h : Word.ofInt? (L.term L.count) = none) :
    ∃ w : Int64, w.toInt = L.term (L.count - 1) ∧
      L.value L.count = .float (Double.ofInt w.toInt + Double.ofInt L.step.toInt) := by
  cases hcount : L.count with
  | zero =>
    rw [hcount, L.term_zero, Word.ofInt?_toInt] at h
    cases h
  | succ k =>
    obtain ⟨w, hw, hfits⟩ := L.fits_of_lt_count (show k < L.count by omega)
    rw [hcount, L.term_succ, ← hw] at h
    refine ⟨w, hw, ?_⟩
    show L.next (L.value k) = _
    rw [L.value_of_fits (by omega) hfits]
    exact L.next_of_add (Value.add_of_overflow h)

end Values

/-! ## Rounds -/

/-- One round in which the variable has some value: the loop goes on, the body ends and leaves the
variable alone, and the variable takes its next value. -/
def RunsOnce (L : CountedLoop) (cx : Context) (v : Value) (m m' : Machine) : Prop :=
  L.goesOn v = true ∧ m.chain.lookup? L.var.name = some v ∧
    ∃ flow m₁ c, Eventually cx (·.block L.body) m (.ok flow m₁) ∧
      (flow = .normal ∨ flow = .continued) ∧ m₁.chain.lookup? L.var.name = some v ∧
      m₁.chain.set L.var.name (L.next v) = .ok c ∧ m' = { m₁ with chain := c }

/-- Some rounds of a loop, with the values of the variable. -/
inductive Visits (L : CountedLoop) (cx : Context) : List Value → Machine → Machine → Prop where
  | nil (m : Machine) : L.Visits cx [] m m
  | cons {v : Value} {vs : List Value} {m m₁ m₂ : Machine} (once : L.RunsOnce cx v m m₁)
      (rest : L.Visits cx vs m₁ m₂) : L.Visits cx (v :: vs) m m₂

/-- A machine before a round in which the variable has some value. -/
structure Ready (L : CountedLoop) (P : Machine → Prop) (v : Value) (m : Machine) : Prop where
  invariant : P m
  bound : m.chain.lookup? L.var.name = some v
  assignable : m.chain.isConst L.var.name = false

/-- The body of a loop always ends, normally or by CONTINUE, and does not change the variable of the
loop.  It may rely on something that it keeps up itself and that does not depend on the variable. -/
structure Steady (L : CountedLoop) (cx : Context) (P : Machine → Prop) : Prop where
  ends : ∀ v m, L.Ready P v m → ∃ n flow m₁, (engine cx n).block L.body m = .ok flow m₁ ∧
    (flow = .normal ∨ flow = .continued) ∧ L.Ready P v m₁
  assigned : ∀ m v c, P m → m.chain.set L.var.name v = .ok c → P { m with chain := c }

/-- A round of the loop with some evaluator. -/
def round (L : CountedLoop) (g : Engine) : Run LoopStep :=
  g.forRound L.var.name (.int L.last) (.int L.step) L.ascending L.body

section Rounds

variable {L : CountedLoop} {cx : Context} {P : Machine → Prop} {v : Value} {vs : List Value}
  {m m₁ m₂ : Machine}

/-- One round more at the end. -/
theorem Visits.concat (h : L.Visits cx vs m m₁) (once : L.RunsOnce cx v m₁ m₂) :
    L.Visits cx (vs ++ [v]) m m₂ := by
  induction h with
  | nil m => exact .cons once (.nil m₂)
  | cons first _ ih => exact .cons first (ih once)

/-- **One round**, in which a steady body runs once. -/
theorem Steady.runsOnce (hsteady : L.Steady cx P) (hready : L.Ready P v m)
    (hgoesOn : L.goesOn v = true) :
    ∃ m', L.RunsOnce cx v m m' ∧ L.Ready P (L.next v) m' := by
  obtain ⟨n, flow, m₁, hblock, hflow, hready₁⟩ := hsteady.ends v m hready
  obtain ⟨c, hset, hbound, hassignable⟩ :=
    Chain.set_of_bound hready₁.assignable hready₁.bound (L.next v)
  have hbody : Eventually cx (·.block L.body) m (.ok flow m₁) :=
    .of_ok (fun hbegins => hbegins.block L.body) hblock
  refine ⟨{ m₁ with chain := c }, ?_, ?_⟩
  · exact ⟨hgoesOn, hready.bound, flow, m₁, c, hbody, hflow, hready₁.bound, hset, rfl⟩
  · exact ⟨hsteady.assigned m₁ _ c hready₁.invariant hset, hbound, hassignable⟩

/-- **A number of rounds**, as long as the loop goes on. -/
theorem Steady.visits (hsteady : L.Steady cx P) (hready : L.Ready P (L.value 0) m) (n : Nat)
    (hgoesOn : ∀ k < n, L.goesOn (L.value k) = true) :
    ∃ m', L.Visits cx (L.values n) m m' ∧ L.Ready P (L.value n) m' := by
  induction n with
  | zero => exact ⟨m, .nil m, hready⟩
  | succ n ih =>
    obtain ⟨m₁, hvisits, hready₁⟩ := ih fun k hk => hgoesOn k (Nat.lt_succ_of_lt hk)
    obtain ⟨m₂, honce, hready₂⟩ := hsteady.runsOnce hready₁ (hgoesOn n (Nat.lt_succ_self n))
    rw [L.values_succ]
    exact ⟨m₂, hvisits.concat honce, hready₂⟩

/-- What a round of the loop does when its body runs once. -/
theorem RunsOnce.round (h : L.RunsOnce cx v m m₁) (hnumber : v.isNumeric = true) :
    Eventually cx L.round m (.ok .next m₁) := by
  obtain ⟨hgoesOn, hbound, flow, m', c, ⟨n₀, hbody⟩, hflow, hbound', hset, rfl⟩ := h
  refine ⟨n₀, ?_⟩
  intro n hn
  have hstep : flow.stepOf .forLoop = .next := by
    rcases hflow with rfl | rfl <;> rfl
  unfold CountedLoop.round Engine.forRound
  unfold goesOn at hgoesOn
  rw [Run.bind_of_ok (Run.readVar_of_bound hbound), hgoesOn, if_pos rfl,
    Run.bind_of_ok (hbody n hn), hstep]
  dsimp only
  rw [Run.bind_of_ok (Run.readVar_of_bound hbound'), (L.add_step hnumber).1]
  exact Run.bind_of_ok (Run.writeChain_of_ok hset)

/-- A loop that has made some rounds goes on from there. -/
theorem Visits.iterate_eq (h : L.Visits cx vs m m₁) (hnumbers : ∀ v ∈ vs, v.isNumeric = true) :
    ∃ n₀, ∀ n, n₀ ≤ n → ∀ fuel,
      iterate (vs.length + fuel) (L.round (engine cx n)) m =
        iterate fuel (L.round (engine cx n)) m₁ := by
  induction h with
  | nil m =>
    refine ⟨0, ?_⟩
    intro n _ fuel
    rw [List.length_nil, Nat.zero_add]
  | @cons v vs m m₁ m₂ once rest ih =>
    obtain ⟨n₁, hround⟩ := once.round (hnumbers v List.mem_cons_self)
    obtain ⟨n₂, hrest⟩ := ih fun w hw => hnumbers w (List.mem_cons_of_mem v hw)
    refine ⟨max n₁ n₂, ?_⟩
    intro n hn fuel
    have hlength : (v :: vs).length + fuel = vs.length + fuel + 1 := by
      rw [List.length_cons]
      omega
    rw [hlength, ← hrest n (by omega) fuel]
    exact Run.bind_of_ok (hround n (by omega))

/-- A loop that does not go on any more ends normally. -/
theorem iterate_of_past (hbound : m.chain.lookup? L.var.name = some v)
    (hpast : L.goesOn v = false) (g : Engine) (fuel : Nat) :
    iterate (fuel + 1) (L.round g) m = .ok .normal m := by
  have hround : L.round g m = .ok .leave m := by
    unfold round Engine.forRound
    rw [Run.bind_of_ok (Run.readVar_of_bound hbound)]
    unfold goesOn at hpast
    rw [if_neg (by rw [hpast]; exact Bool.false_ne_true)]
    rfl
  exact Run.bind_of_ok hround

/-- A loop that always goes on does not end, with whatever fuel. -/
theorem Steady.iterate_stops (hsteady : L.Steady cx P)
    (hgoesOn : ∀ k, L.goesOn (L.value k) = true) {k : Nat} (hready : L.Ready P (L.value k) m)
    (n fuel : Nat) : Stops (iterate fuel (L.round (engine cx n)) m) := by
  induction fuel generalizing k m with
  | zero => exact ⟨m, rfl⟩
  | succ fuel ih =>
    obtain ⟨m₁, honce, hready₁⟩ := hsteady.runsOnce hready (hgoesOn k)
    -- With this fuel the round ends as it does with enough of it, or it stops before.
    have hround := (honce.round (L.isNumeric_value k)).precedes
      (fun hbegins => hbegins.forRound L.var _ _ _ L.body) n
    rcases hround with same | ⟨m₂, stopped⟩
    · obtain ⟨m₂, stopped⟩ := ih (k := k + 1) hready₁
      exact ⟨m₂, (Run.bind_of_ok same.symm).trans stopped⟩
    · exact ⟨m₂, Run.bind_of_error stopped⟩

end Rounds

/-! ## The loop -/

section Loop

variable {L : CountedLoop} {cx : Context} {m : Machine} {c : Chain}

/-- The loop goes round once its variable has been declared. -/
theorem exec_stmt (hdefine : m.chain.define L.var.name (.int L.start) = (c, .ok ())) (n : Nat) :
    exec cx (n + 2) L.stmt m =
      Run.surface (iterate (n + 1) (L.round (engine cx (n + 1)))) { m with chain := c } := by
  have hascending : ((Value.int L.step).compare? (.int 0) != some .lt) = L.ascending := by
    have hstep := L.step_toInt_ne_zero
    have hzero : (0 : Int64).toInt = 0 := rfl
    unfold Value.compare? ascending
    dsimp only
    rw [hzero]
    rcases Int.lt_trichotomy L.step.toInt 0 with hlt | heq | hgt
    · rw [Int.compare_eq_lt.mpr hlt]
      simp [Int.le_of_lt hlt]
    · exact (hstep heq).elim
    · rw [Int.compare_eq_gt.mpr hgt]
      simp [hgt]
  have hloop : execStep cx (engine cx (n + 1)) L.stmt m =
      iterate (n + 1) (L.round (engine cx (n + 1))) { m with chain := c } := by
    show (Run.define L.var.name (.int L.start) >>= fun _ => iterate (n + 1)
      ((engine cx (n + 1)).forRound L.var.name (.int L.last) (.int L.step) _ L.body)) m = _
    rw [hascending, Run.bind_of_ok (Run.define_of_ok hdefine)]
    rfl
  show Run.surface (execStep cx (engine cx (n + 1)) L.stmt) m = _
  unfold Run.surface
  rw [hloop]

/-- After its definition the variable has the first value. -/
theorem ready_of_define {P : Machine → Prop}
    (hdefine : m.chain.define L.var.name (.int L.start) = (c, .ok ()))
    (hP : P { m with chain := c }) : L.Ready P (L.value 0) { m with chain := c } :=
  ⟨hP, (Chain.define_eq_ok hdefine).2, Chain.isConst_of_define_ok hdefine⟩

/-- A loop that is past its end after some rounds has ended normally. -/
theorem Visits.eventually_normal {n : Nat} {m₁ : Machine}
    (hdefine : m.chain.define L.var.name (.int L.start) = (c, .ok ()))
    (hvisits : L.Visits cx (L.values n) { m with chain := c } m₁)
    (hbound : m₁.chain.lookup? L.var.name = some (L.value n))
    (hpast : L.goesOn (L.value n) = false) :
    Eventually cx (·.exec L.stmt) m (.ok .normal m₁) := by
  have hnumbers : ∀ v ∈ L.values n, v.isNumeric = true := by
    intro v hv
    obtain ⟨k, -, rfl⟩ := List.mem_map.mp hv
    exact L.isNumeric_value k
  have hlength : (L.values n).length = n := by simp [values]
  obtain ⟨n₀, hiterate⟩ := hvisits.iterate_eq hnumbers
  refine ⟨max n₀ n + 2, ?_⟩
  intro k hk
  obtain ⟨j, rfl⟩ : ∃ j, k = j + 2 := ⟨k - 2, by omega⟩
  -- After its rounds the loop has fuel left for one look at the variable.
  have hrounds := hiterate (j + 1) (by omega) (j - n + 1)
  rw [hlength, show n + (j - n + 1) = j + 1 by omega, iterate_of_past hbound hpast] at hrounds
  show exec cx (j + 2) L.stmt m = _
  rw [exec_stmt hdefine]
  unfold Run.surface
  rw [hrounds]

end Loop

end CountedLoop

/-- **A FOR loop visits an arithmetic progression, and may overshoot.**  The body always ends, normally
or by CONTINUE, and does not change the variable of the loop; the variable can be declared.  Then

* the body runs once for each term of the progression up to the end, with the variable holding that
  term, an exact integer, and if the value after that is past the end the loop ends normally;
* it is past the end if the first term beyond the end fits 64 bits;
* otherwise the value is a double, and if that does not compare as past the end the body runs once
  more with it;
* if no value is ever past the end the loop does not end, with whatever fuel. -/
theorem for_visits_progression (cx : Context) (L : CountedLoop) (P : Machine → Prop)
    (hsteady : L.Steady cx P) (m : Machine) (c : Chain)
    (hdefine : m.chain.define L.var.name (.int L.start) = (c, .ok ()))
    (hP : P { m with chain := c }) :
    (∀ k < L.count, ∃ w : Int64, w.toInt = L.term k ∧ L.value k = .int w) ∧
    (∃ m', L.Visits cx (L.values L.count) { m with chain := c } m' ∧
      (L.goesOn (L.value L.count) = false →
        Eventually cx (·.exec L.stmt) m (.ok .normal m'))) ∧
    ((Word.ofInt? (L.term L.count)).isSome → L.goesOn (L.value L.count) = false) ∧
    (L.goesOn (L.value L.count) = true →
      (∃ x, L.value L.count = .float x) ∧
        ∃ m', L.Visits cx (L.values (L.count + 1)) { m with chain := c } m') ∧
    ((∀ k, L.goesOn (L.value k) = true) → ∀ n, Stops (exec cx n L.stmt m)) := by
  have hready := CountedLoop.ready_of_define hdefine hP
  have hcount : ∀ k < L.count, L.goesOn (L.value k) = true := fun _ => L.goesOn_of_lt_count
  refine ⟨?_, ?_, L.goesOn_count_of_fits, ?_, ?_⟩
  · intro k hk
    obtain ⟨w, hw, hfits⟩ := L.fits_of_lt_count hk
    exact ⟨w, hw, L.value_of_fits (Nat.le_of_lt hk) hfits⟩
  · obtain ⟨m', hvisits, hready'⟩ := hsteady.visits hready L.count hcount
    exact ⟨m', hvisits, hvisits.eventually_normal hdefine hready'.bound⟩
  · intro hovershoots
    refine ⟨?_, ?_⟩
    · -- An integer that fits would be past the end.
      cases hfits : Word.ofInt? (L.term L.count) with
      | some w =>
        rw [L.goesOn_count_of_fits (by rw [hfits]; rfl)] at hovershoots
        cases hovershoots
      | none =>
        obtain ⟨w, -, hvalue⟩ := L.value_count_of_overflow hfits
        exact ⟨_, hvalue⟩
    · have hgoesOn : ∀ k < L.count + 1, L.goesOn (L.value k) = true := by
        intro k hk
        rcases Nat.lt_succ_iff_lt_or_eq.mp hk with hlt | rfl
        · exact hcount k hlt
        · exact hovershoots
      obtain ⟨m', hvisits, -⟩ := hsteady.visits hready (L.count + 1) hgoesOn
      exact ⟨m', hvisits⟩
  · intro hgoesOn n
    match n with
    | 0 => exact ⟨m, rfl⟩
    | 1 => exact ⟨m, rfl⟩
    | n + 2 =>
      obtain ⟨m', stopped⟩ := hsteady.iterate_stops hgoesOn hready (n + 1) (n + 1)
      refine ⟨m', ?_⟩
      rw [CountedLoop.exec_stmt hdefine]
      unfold Run.surface
      rw [stopped]

/-- A body that only goes on with the loop is steady. -/
theorem CountedLoop.Steady.of_continue {L : CountedLoop} (cx : Context)
    (hbody : L.body = [.continueLoop]) : L.Steady cx fun _ => True where
  ends := by
    intro v m hready
    refine ⟨1, .continued, m, ?_, .inr rfl, hready⟩
    rw [hbody]
    rfl
  assigned := fun _ _ _ _ _ => trivial

/-- A loop that goes up by threes and whose first term beyond the end is the greatest integer. -/
def threesToGreatest : CountedLoop :=
  ⟨.ofString "i", 9223372036854775798, 9223372036854775805, 3, by decide, [.continueLoop]⟩

/-- A loop over the greatest integer alone. -/
def greatestAlone : CountedLoop :=
  ⟨.ofString "i", 9223372036854775807, 9223372036854775807, 1, by decide, [.continueLoop]⟩

/-- The greatest integer and one make a double, to which one more adds nothing, and which does not
compare as greater than the greatest integer. -/
theorem goesOn_greatestAlone (k : Nat) :
    greatestAlone.goesOn (greatestAlone.value k) = true := by
  have hvalue : ∀ k, greatestAlone.value (k + 1) = .float (Double.ofInt 9223372036854775808) := by
    intro k
    induction k with
    | zero => exact greatestAlone.next_of_add (Value.add_of_overflow (by decide))
    | succ k ih =>
      show greatestAlone.next (greatestAlone.value (k + 1)) = _
      rw [ih]
      rfl
  cases k with
  | zero => exact greatestAlone.goesOn_of_lt_count (by decide)
  | succ k =>
    rw [hvalue]
    decide

/-- Near the greatest integer one loop runs its body three times and ends, and the other, which should
run its body once, does not end. -/
theorem for_visits_progression_nearGreatest :
    let m := Machine.start {}
    (threesToGreatest.count = 3 ∧
      ∃ c m', m.chain.define "I" (.int threesToGreatest.start) = (c, .ok ()) ∧
        threesToGreatest.Visits {} (threesToGreatest.values 3) { m with chain := c } m' ∧
        Eventually {} (·.exec threesToGreatest.stmt) m (.ok .normal m')) ∧
    (greatestAlone.count = 1 ∧ ∀ n, Stops (exec {} n greatestAlone.stmt m)) := by
  intro m
  refine ⟨⟨by decide, ?_⟩, ⟨by decide, ?_⟩⟩
  · obtain ⟨-, ⟨m', hvisits, hends⟩, hfits, -⟩ :=
      for_visits_progression {} threesToGreatest (fun _ => True) (.of_continue {} rfl) m _
        rfl trivial
    exact ⟨_, m', rfl, hvisits, hends (hfits (by decide))⟩
  · obtain ⟨-, -, -, -, hnever⟩ :=
      for_visits_progression {} greatestAlone (fun _ => True) (.of_continue {} rfl) m _
        rfl trivial
    exact hnever goesOn_greatestAlone

/-- A loop whose body counts its rounds. -/
def roundCounter : CountedLoop :=
  ⟨.ofString "i", 9223372036854773808, 9223372036854775807, 2040, by decide,
    [.assign (.ofString "n") (.binary .add (.var (.ofString "n")) (.int 1))]⟩

/-- A loop that should run its body once runs it twice, and ends with a double in its variable. -/
theorem for_overshoots :
    let m := (Machine.run {} 20 (Machine.start {})
      ⟨[.define (.ofString "n") (.int 0), roundCounter.stmt]⟩).2
    roundCounter.count = 1 ∧ m.global? "n" = some (.int 2) ∧
      m.global? "i" = some (.float (Double.ofInt 9223372036854777856)) :=
  ⟨by decide, rfl, rfl⟩

end BasicScript
