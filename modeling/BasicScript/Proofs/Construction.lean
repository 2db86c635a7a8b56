import BasicScript.Proofs.Inheritance

/-!
# New objects and the two tables of types

A name of a type is looked up among the types of the program first and among those of the host then,
so a type of the program may have a type of the host for its parent, and a way upward may lead from
one table into the other and back.  A new object of a type of the program is made from the table of
the program alone.  It has the fields of the types above it up to the first one that is not in this
table; the fields that it should inherit from there on are missing.

* `Machine.ancestor?_of_own` and `Machine.own_of_ancestor?`: the way through the table of the program
  is a part of the way through both tables.
* `construction_inherits_unless_from_host` is the main statement, and `host_field_not_inherited` an
  object without a field that its type inherits.
-/

namespace BasicScript

/-- The table of the types that a program has declared. -/
def TypeTable.ofDecls (ds : List TypeDecl) : TypeTable :=
  ofTypes (ds.map .ofDecl)

/-- The types that a program declares come behind those that were there. -/
theorem Machine.types_load {m : Machine} {ds : List TypeDecl} (h : m.types = .ofDecls ds)
    (p : Program) : (m.load p).types = .ofDecls (ds ++ p.types) := by
  rw [(m.load_tables p).2.2, h]
  unfold TypeTable.ofDecls TypeTable.ofTypes Table.enterAll
  rw [List.map_append, List.foldl_append, List.foldl_map, List.foldl_map]
  rfl

/-- Parents in a program are named in upper case. -/
theorem TypeTable.parentsUpper_ofDecls (ds : List TypeDecl) : (ofDecls ds).ParentsUpper := by
  refine parentsUpper_ofTypes fun t ht parent hparent => ?_
  obtain ⟨d, -, rfl⟩ := List.mem_map.mp ht
  obtain ⟨x, -, rfl⟩ := Option.map_eq_some_iff.mp hparent
  exact x.upper_name

namespace Machine

/-! ## The way through one table and through both -/

section Ancestors

variable {cx : Context} {m : Machine} {name a : String} {k : Nat} {t : TypeInfo}
  (h : m.types.ParentsUpper) (hname : Text.upper name = name)
include h hname

/-- The way through the table of the program is a part of the way through both tables. -/
theorem ancestorName?_of_own (ha : ancestorName? (Table.get? m.types) name k = some a) :
    ancestorName? (m.findType? cx) name k = some a := by
  induction k generalizing a with
  | zero => exact ha
  | succ k ih =>
    obtain ⟨b, hb, hparent⟩ := Option.bind_eq_some_iff.mp ha
    obtain ⟨t, ht, hparent⟩ := Option.bind_eq_some_iff.mp hparent
    have hfind : m.findType? cx b = some t := by
      unfold findType? TypeTable.find?
      rw [h.ancestorName? hname hb, ht]
      rfl
    refine Option.bind_eq_some_iff.mpr ⟨b, ih hb, ?_⟩
    rw [hfind]
    exact hparent

/-- What is met along the parents in the program alone is met with the host too. -/
theorem ancestor?_of_own (ht : ancestor? (Table.get? m.types) name k = some t) :
    ancestor? (m.findType? cx) name k = some t := by
  obtain ⟨a, ha, hget⟩ := Option.bind_eq_some_iff.mp ht
  refine Option.bind_eq_some_iff.mpr ⟨a, ancestorName?_of_own h hname ha, ?_⟩
  unfold findType? TypeTable.find?
  rw [h.ancestorName? hname ha, hget]
  rfl

/-- As long as the names on the way through both tables are those of types of the program, it does not
leave the table of the program. -/
theorem own_of_ancestor? (ht : ancestor? (m.findType? cx) name k = some t)
    (hown : ∀ i ≤ k, ∀ a, ancestorName? (m.findType? cx) name i = some a →
      m.types.has a = true) :
    ancestor? (Table.get? m.types) name k = some t := by
  induction k generalizing t with
  | zero =>
    have hhas := hown 0 (Nat.le_refl 0) name rfl
    obtain ⟨t', ht'⟩ := Option.isSome_iff_exists.mp hhas
    have hfind : m.findType? cx name = some t' := by
      unfold findType?
      rw [ht']
      rfl
    have heq : t = t' := Option.some.inj (ht.symm.trans hfind)
    unfold TypeTable.find? at ht'
    rw [hname] at ht'
    rw [heq]
    exact ht'
  | succ k ih =>
    obtain ⟨a, ha, hfind⟩ := Option.bind_eq_some_iff.mp ht
    have hhas := hown (k + 1) (Nat.le_refl _) a ha
    rw [ancestorName?_succ] at ha
    obtain ⟨below, hbelow, hparent⟩ := Option.bind_eq_some_iff.mp ha
    have hbelow := ih hbelow fun i hi => hown i (by omega)
    have hname' : ancestorName? (Table.get? m.types) name (k + 1) = some a := by
      rw [ancestorName?_succ, hbelow]
      exact hparent
    obtain ⟨t', ht'⟩ := Option.isSome_iff_exists.mp hhas
    have heq : t = t' := by
      unfold findType? at hfind
      rw [ht'] at hfind
      exact (Option.some.inj hfind).symm
    unfold TypeTable.find? at ht'
    rw [h.ancestorName? hname hname'] at ht'
    rw [heq]
    exact Option.bind_eq_some_iff.mpr ⟨a, hname', ht'⟩

/-- A field whose nearest declaration is reached through types of the program is found in their
table. -/
theorem declaredAt_own {field : String} {type : Option String}
    (hfield : DeclaredAt (m.findType? cx) name field k type)
    (hown : ∀ i ≤ k, ∀ a, ancestorName? (m.findType? cx) name i = some a →
      m.types.has a = true) :
    DeclaredAt (Table.get? m.types) name field k type := by
  obtain ⟨t, ht, htype⟩ := Option.bind_eq_some_iff.mp hfield.here
  refine ⟨Option.bind_eq_some_iff.mpr ⟨t, own_of_ancestor? h hname ht hown, htype⟩, ?_⟩
  intro i hi
  refine Option.bind_eq_none_iff.mpr fun t' ht' => ?_
  exact Option.bind_eq_none_iff.mp (hfield.nearest i hi) t' (ancestor?_of_own h hname ht')

/-- A declaration that is found in the table of the program is the nearest one in both tables, and it
is reached through types of the program. -/
theorem declaredAt_of_own {field : String} {type : Option String}
    (hfield : DeclaredAt (Table.get? m.types) name field k type) :
    DeclaredAt (m.findType? cx) name field k type ∧
      ∀ i ≤ k, ∀ a, ancestorName? (m.findType? cx) name i = some a → m.types.has a = true := by
  obtain ⟨t, ht, htype⟩ := Option.bind_eq_some_iff.mp hfield.here
  have hown : ∀ i ≤ k, ∃ a t', ancestorName? (Table.get? m.types) name i = some a ∧
      Table.get? m.types a = some t' := by
    intro i hi
    have hsome : ∃ t', ancestor? (Table.get? m.types) name i = some t' := by
      by_cases hik : i < k
      · obtain ⟨b, hb, -⟩ := Option.bind_eq_some_iff.mp ht
        exact ancestor?_of_lt hb hik
      · obtain rfl : i = k := by omega
        exact ⟨t, ht⟩
    obtain ⟨t', ht'⟩ := hsome
    obtain ⟨a, ha, hget⟩ := Option.bind_eq_some_iff.mp ht'
    exact ⟨a, t', ha, hget⟩
  refine ⟨⟨Option.bind_eq_some_iff.mpr ⟨t, ancestor?_of_own h hname ht, htype⟩, ?_⟩, ?_⟩
  · intro i hi
    obtain ⟨a, t', ha, hget⟩ := hown i hi.le
    have ht' : ancestor? (Table.get? m.types) name i = some t' :=
      Option.bind_eq_some_iff.mpr ⟨a, ha, hget⟩
    have hnone := hfield.nearest i hi
    rw [ht'] at hnone
    rw [ancestor?_of_own h hname ht']
    exact hnone
  · intro i hi a ha
    obtain ⟨b, t', hb, hget⟩ := hown i hi
    have hab : a = b := Option.some.inj (ha.symm.trans (ancestorName?_of_own h hname hb))
    unfold TypeTable.has TypeTable.find?
    rw [hab, h.ancestorName? hname hb, hget]
    rfl

end Ancestors

end Machine

/-- The nearest declaration of a field is one. -/
theorem DeclaredAt.unique {type? : String → Option TypeInfo} {name field : String} {k k' : Nat}
    {type type' : Option String} (h : DeclaredAt type? name field k type)
    (h' : DeclaredAt type? name field k' type') : k = k' ∧ type = type' := by
  have hk : k = k' := by
    rcases Nat.lt_trichotomy k k' with hlt | heq | hlt
    · exact absurd (h.here.symm.trans (h'.nearest k hlt)) (Option.some_ne_none type)
    · exact heq
    · exact absurd (h'.here.symm.trans (h.nearest k' hlt)) (Option.some_ne_none type')
  subst hk
  exact ⟨rfl, Option.some.inj (h.here.symm.trans h'.here)⟩

/-! ## New objects -/

/-- **A new object inherits as far as the types of the program go.**  A machine knows the types that
programs have declared, whatever the host has registered besides, and no SUB or FUNCTION has the name
of one of them.  Then a call of this name without arguments succeeds, changes nothing, and yields an
object with the tag of the type.  Consider the nearest declaration of a field on the way upward, where
every name is looked up among the types of the program first and among those of the host then.

* If all types up to there are types of the program, the object has the field, with what this
  declaration gives it to start with.
* If one of them is a type of the host, the object does not have the field.

Fields that no type on the way declares it does not have either. -/
theorem construction_inherits_unless_from_host (cx : Context) (m : Machine) (ds : List TypeDecl)
    (d : TypeDecl) (hm : m.types = .ofDecls ds)
    (hd : registered? (ds.map .ofDecl) d.name.name = some (.ofDecl d))
    (hsub : Table.get? m.subs d.name.name = none)
    (hfunction : Table.get? m.functions d.name.name = none) (n : Nat) :
    ∃ fields, eval cx (n + 1) (.call d.name [] []) m = .ok (.map fields) m ∧
      Table.get? fields Value.typeKey = some (.str d.name.name) ∧
      ∀ field, field ≠ Value.typeKey →
        (∀ k type, DeclaredAt (m.findType? cx) d.name.name field k type →
          ((∀ i ≤ k, ∀ a, ancestorName? (m.findType? cx) d.name.name i = some a →
              m.types.has a = true) →
            Table.get? fields field = some (Value.initial type)) ∧
          (∀ i ≤ k, ∀ a, ancestorName? (m.findType? cx) d.name.name i = some a →
              m.types.has a = false →
            Table.get? fields field = none)) ∧
        ((∀ k type, ¬ DeclaredAt (m.findType? cx) d.name.name field k type) →
          Table.get? fields field = none) := by
  have hname : Text.upper d.name.name = d.name.name := d.name.upper_name
  have hparents : m.types.ParentsUpper := hm ▸ TypeTable.parentsUpper_ofDecls ds
  have hget : Table.get? m.types d.name.name = some (.ofDecl d) := by
    rw [hm]
    unfold TypeTable.ofDecls
    rw [TypeTable.get?_ofTypes, hd]
  have hfind : m.types.find? d.name.name = some (.ofDecl d) := by
    unfold TypeTable.find?
    rw [hname, hget]
  have hinstance : m.instance? cx d.name.name = some (.map (m.types.freshFields (.ofDecl d))) := by
    unfold Machine.instance?
    rw [TypeTable.instance?_eq hfind]
    rfl
  have hnone := (engine cx n).callProcedure?_of_none cx [] [] hsub hfunction
  refine ⟨m.types.freshFields (.ofDecl d),
    (engine cx n).dispatch_of_type cx [] [] hnone hinstance, Table.get?_insert_self _ _ _, ?_⟩
  intro field hfield
  have hfields : ∀ v, Table.get? (m.types.freshFields (.ofDecl d)) field = some v ↔
      ∃ k type, DeclaredAt (Table.get? m.types) d.name.name field k type ∧
        v = Value.initial type := fun v => hparents.get?_freshFields hname hget hfield
  refine ⟨fun k type hat => ⟨fun hown => ?_, fun i hi a ha hhost => ?_⟩, fun hnowhere => ?_⟩
  · exact (hfields _).mpr ⟨k, type, Machine.declaredAt_own hparents hname hat hown, rfl⟩
  · refine Option.eq_none_iff_forall_ne_some.mpr fun v hv => ?_
    obtain ⟨k', type', hat', -⟩ := (hfields v).mp hv
    have hfound : DeclaredAt (m.findType? cx) d.name.name field k' type' ∧ ∀ i ≤ k', ∀ a,
        ancestorName? (m.findType? cx) d.name.name i = some a → m.types.has a = true :=
      Machine.declaredAt_of_own hparents hname hat'
    obtain ⟨hboth, hown⟩ := hfound
    obtain ⟨rfl, -⟩ := hat.unique hboth
    rw [hown i hi a ha] at hhost
    cases hhost
  · refine Option.eq_none_iff_forall_ne_some.mpr fun v hv => ?_
    obtain ⟨k, type, hat, -⟩ := (hfields v).mp hv
    exact hnowhere k type (Machine.declaredAt_of_own hparents hname hat).1

/-- A host with one type, which has one field. -/
def fieldHost : Host :=
  { types := .ofTypes [{ name := "H", fields := [("X", some "INTEGER")] }] }

/-- A program type whose parent is the type of the host. -/
def hostChild : TypeDecl :=
  ⟨.ofString "t", some (.ofString "h"), [(.ofString "y", some (.ofString "string"))], []⟩

/-- A child of that type. -/
def hostGrandchild : TypeDecl :=
  ⟨.ofString "u", some (.ofString "t"), [], []⟩

/-- The two types of the program. -/
def hostTypes : Program :=
  ⟨[.typeBlock hostChild, .typeBlock hostGrandchild]⟩

/-- An object of the grandchild has the field of the child and not that of the host. -/
theorem construction_inherits_unless_from_host_grandchild :
    let cx : Context := { host := fieldHost }
    let m := (Machine.start {}).loadProgram hostTypes
    m.types = .ofDecls [hostChild, hostGrandchild] ∧
    ∃ fields, eval cx 1 (.call (.ofString "u") [] []) m = .ok (.map fields) m ∧
      Table.get? fields "Y" = some (.str "") ∧ Table.get? fields "X" = none := by
  intro cx m
  have hm : m.types = .ofDecls [hostChild, hostGrandchild] :=
    Machine.types_load (show (Machine.start {}).types = .ofDecls [] from rfl) _
  obtain ⟨fields, hcall, -, hfields⟩ := construction_inherits_unless_from_host cx m
    [hostChild, hostGrandchild] hostGrandchild hm rfl rfl rfl 0
  have hown : DeclaredAt (m.findType? cx) "U" "Y" 1 (some "STRING") := by
    refine ⟨rfl, fun i hi => ?_⟩
    obtain rfl : i = 0 := by omega
    rfl
  have hhost : DeclaredAt (m.findType? cx) "U" "X" 2 (some "INTEGER") := by
    refine ⟨rfl, fun i hi => ?_⟩
    obtain rfl | rfl : i = 0 ∨ i = 1 := by omega
    · rfl
    · rfl
  refine ⟨hm, fields, hcall, ?_, ?_⟩
  · refine ((hfields "Y" (by decide)).1 1 _ hown).1 fun i hi a ha => ?_
    obtain rfl | rfl : i = 0 ∨ i = 1 := by omega
    · cases ha
      rfl
    · cases ha
      rfl
  · exact ((hfields "X" (by decide)).1 2 _ hhost).2 2 (Nat.le_refl 2) "H" rfl rfl

/-- A type of the program inherits a field from a type of the host, and its objects do not have it. -/
theorem host_field_not_inherited :
    let cx : Context := { host := fieldHost }
    let m := (Machine.start {}).loadProgram hostTypes
    DeclaredAt (m.findType? cx) "T" "X" 1 (some "INTEGER") ∧
      eval cx 1 (.call (.ofString "t") [] []) m =
        .ok (.map [("Y", .str ""), ("_type", .str "T")]) m := by
  refine ⟨⟨rfl, fun i hi => ?_⟩, rfl⟩
  obtain rfl : i = 0 := by omega
  rfl

end BasicScript
