import BasicScript.Proofs.Keyed.Value

/-!
# The keys in a machine

The names of variables are keys too, for a lambda keeps what it has seen in a map.  So a scope is
`Keyed` if its names and all keys in its values satisfy a condition.  Everything that is done to
scopes keeps that up, and what can be read off a keyed machine is keyed: variables, members of
objects, new objects and method objects.

* `Chain.Keyed` with one lemma for each way to read or write.
* `Host.Keyed` is what is asked of a host: natives and hooks answer keyed values with keyed ones.
* `Machine.Keyed.member?`, `Machine.Keyed.instance?`: what a machine yields.
-/

namespace BasicScript

variable {K : String → Prop}

/-! ## Scopes -/

/-- Every name of a scope and every key in its values satisfies a condition. -/
def Scope.Keyed (K : String → Prop) (s : Scope) : Prop :=
  Table.Keyed K s.vars

/-- All scopes of a chain are keyed. -/
structure Chain.Keyed (K : String → Prop) (c : Chain) : Prop where
  inner : ∀ s ∈ c.inner, s.Keyed K
  root : c.root.Keyed K

namespace Scope.Keyed

variable {s : Scope} {name : String} {v : Value}

/-- A keyed value is written under an allowed name. -/
theorem write (h : s.Keyed K) (hname : K name) (hv : v.Keyed K) : (s.write name v).Keyed K :=
  Table.Keyed.insert h hname hv

/-- A keyed value is bound under an allowed name. -/
theorem bind (h : s.Keyed K) (hname : K name) (hv : v.Keyed K) : (s.bind name v).Keyed K :=
  Table.Keyed.insert h hname hv

/-- Keyed entries are bound one after the other. -/
theorem bindAll {entries : Table Value} (h : s.Keyed K) (hentries : Table.Keyed K entries) :
    (s.bindAll entries).Keyed K := by
  induction entries generalizing s with
  | nil => exact h
  | cons e rest ih =>
    obtain ⟨he, hrest⟩ := List.forall_mem_cons.mp hentries
    exact ih (h.bind he.1 he.2) hrest

end Scope.Keyed

theorem Chain.keyed_newBlock (c : Chain) : c.newBlock.Keyed K := Table.Keyed.nil

theorem Chain.keyed_newFrame (c : Chain) : c.newFrame.Keyed K := Table.Keyed.nil

namespace Chain.Keyed

variable {c : Chain} {name : String} {v : Value}

theorem modifyTop (h : c.Keyed K) {f : Scope → Scope} (hf : ∀ s : Scope, s.Keyed K → (f s).Keyed K) :
    (c.modifyTop f).Keyed K := by
  obtain ⟨inner, root⟩ := c
  cases inner with
  | nil => exact ⟨h.inner, hf _ h.root⟩
  | cons s rest =>
    obtain ⟨hs, hrest⟩ := List.forall_mem_cons.mp h.inner
    exact ⟨List.forall_mem_cons.mpr ⟨hf s hs, hrest⟩, h.root⟩

theorem push (h : c.Keyed K) {s : Scope} (hs : s.Keyed K) : (c.push s).Keyed K :=
  ⟨List.forall_mem_cons.mpr ⟨hs, h.inner⟩, h.root⟩

theorem pop (h : c.Keyed K) : c.pop.Keyed K :=
  ⟨fun s hs => h.inner s (List.mem_of_mem_tail hs), h.root⟩

/-! ### Reading -/

/-- What a name stands for is keyed, wherever in the chain it is found. -/
theorem lookup? (h : c.Keyed K) (hv : c.lookup? name = some v) : v.Keyed K := by
  obtain ⟨inner, root⟩ := c
  obtain ⟨hinner, hroot⟩ := h
  unfold Chain.lookup? at hv
  dsimp only at hinner hroot hv
  induction inner with
  | nil => exact Table.Keyed.get? hroot hv
  | cons s rest ih =>
    obtain ⟨hs, hrest⟩ := List.forall_mem_cons.mp hinner
    unfold lookupIn at hv
    split at hv
    · exact Table.Keyed.get? hroot hv
    · split at hv
      · next w hw =>
        cases hv
        exact Table.Keyed.get? hs hw
      · exact ih hv hrest

/-- Reading a variable gives a keyed value. -/
theorem get (h : c.Keyed K) (name : String) : Gives (Value.Keyed K) (c.get name) := by
  unfold Chain.get
  split
  · next v hv => exact .ok (h.lookup? hv)
  · split
    · exact .error _
    · exact .ok .nil

/-- The names and values that a lambda keeps are keyed. -/
theorem snapshot (h : c.Keyed K) : Table.Keyed K c.snapshot := by
  obtain ⟨inner, root⟩ := c
  obtain ⟨hinner, hroot⟩ := h
  unfold Chain.snapshot
  dsimp only at hinner hroot ⊢
  induction inner with
  | nil => exact hroot
  | cons s rest ih =>
    obtain ⟨hs, hrest⟩ := List.forall_mem_cons.mp hinner
    exact (ih hrest).insertAll hs

/-! ### Writing -/

/-- A GLOBAL mark binds nothing. -/
theorem addGlobal (h : c.Keyed K) (name : String) : (c.addGlobal name).Keyed K := by
  have hmarked : (c.modifyTop fun s => { s with globals := Scope.addName s.globals name }).Keyed K :=
    h.modifyTop fun _ hs => hs
  unfold Chain.addGlobal
  dsimp only
  split
  · exact ⟨hmarked.inner, hmarked.root⟩
  · exact hmarked

/-- A binding in the innermost scope keeps a chain keyed. -/
theorem bind (h : c.Keyed K) (hname : K name) (hv : v.Keyed K) : (c.bind name v).Keyed K :=
  h.modifyTop fun _ hs => hs.bind hname hv

/-- A write to the root keeps it keyed. -/
theorem setRoot {root : Scope} (h : root.Keyed K) (strict : Bool) (hname : K name)
    (hv : v.Keyed K) : Gives (Scope.Keyed K) (Chain.setRoot root strict name v) := by
  unfold Chain.setRoot
  split
  · exact .error _
  · split
    · exact .error _
    · exact .ok (h.write hname hv)

/-- An assignment keeps the scopes keyed, whichever of them it reaches. -/
theorem assignIn {root : Scope} {scopes : List Scope} (hroot : root.Keyed K)
    (hscopes : ∀ s ∈ scopes, s.Keyed K) (hname : K name) (hv : v.Keyed K) :
    Gives (Chain.Keyed K) (Chain.assignIn root name v scopes) := by
  induction scopes with
  | nil =>
    unfold Chain.assignIn
    split
    · exact (setRoot hroot _ hname hv).map fun _ hr => ⟨hscopes, hr⟩
    · exact .ok ⟨hscopes, hroot.write hname hv⟩
  | cons s rest ih =>
    obtain ⟨hs, hrest⟩ := List.forall_mem_cons.mp hscopes
    unfold Chain.assignIn
    split
    · exact (setRoot hroot _ hname hv).map fun _ hr => ⟨hscopes, hr⟩
    · split
      · exact .ok ⟨List.forall_mem_cons.mpr ⟨hs.write hname hv, hrest⟩, hroot⟩
      · exact (ih hrest).map fun _ hc => hc.push hs

theorem set (h : c.Keyed K) (hname : K name) (hv : v.Keyed K) :
    Gives (Chain.Keyed K) (c.set name v) := by
  unfold Chain.set
  split
  · exact (setRoot h.root _ hname hv).map fun _ hr => ⟨h.inner, hr⟩
  · split
    · exact .error _
    · split
      · exact .error _
      · exact assignIn h.root h.inner hname hv

/-- A definition keeps a chain keyed, even where it fails. -/
theorem define (h : c.Keyed K) (hname : K name) (hv : v.Keyed K) :
    (c.define name v).1.Keyed K := by
  unfold Chain.define
  split
  · exact h
  · split
    · have hdeclared : (c.modifyTop (·.declare name)).Keyed K := h.modifyTop fun _ hs => hs
      dsimp only
      split
      · next root hr => exact ⟨hdeclared.inner, setRoot hdeclared.root _ hname hv root hr⟩
      · exact hdeclared
    · exact h.bind hname hv

/-- A LOCAL keeps a chain keyed. -/
theorem defineLocal (h : c.Keyed K) (hname : K name) (hv : v.Keyed K) :
    Gives (Chain.Keyed K) (c.defineLocal name v) := by
  unfold Chain.defineLocal
  split
  · exact .error _
  · exact .ok (h.bind hname hv)

/-- A CONST keeps a chain keyed. -/
theorem defineConst (h : c.Keyed K) (hname : K name) (hv : v.Keyed K) :
    Gives (Chain.Keyed K) (c.defineConst name v) := by
  unfold Chain.defineConst
  split
  · exact .error _
  · exact .ok (h.modifyTop fun _ hs => Scope.Keyed.bind hs hname hv)

/-- A condition that is true of all texts is true of the names and keys in every chain. -/
theorem of_all (h : ∀ k, K k) (c : Chain) : c.Keyed K :=
  ⟨fun s _ => Table.keyed_of_all h s.vars, Table.keyed_of_all h c.root.vars⟩

end Chain.Keyed

/-! ## Types -/

/-- The names of a type's fields satisfy a condition. -/
def TypeInfo.Keyed (K : String → Prop) (t : TypeInfo) : Prop :=
  ∀ f ∈ t.fields, K f.1

/-- All types of a table are keyed. -/
def TypeTable.Keyed (K : String → Prop) (ts : TypeTable) : Prop :=
  ∀ e ∈ ts, e.2.Keyed K

/-- What a field starts with has no keys. -/
theorem Value.keyed_initial (type : Option String) : (initial type).Keyed K := by
  unfold initial
  split <;> constructor

namespace TypeTable.Keyed

variable {ts : TypeTable} {t : TypeInfo} {name : String}

/-- A type that is found in a keyed table is keyed. -/
theorem find? (h : ts.Keyed K) (ht : ts.find? name = some t) : t.Keyed K :=
  h _ (Table.mem_of_get? ht)

/-- A keyed type is registered. -/
theorem register (h : ts.Keyed K) (ht : t.Keyed K) : (ts.register t).Keyed K := by
  intro e he
  rcases Table.mem_of_mem_insert he with rfl | he
  · exact ht
  · exact h e he

/-- The types that a keyed type inherits from are keyed. -/
theorem lineageFrom (h : ts.Keyed K) (ht : t.Keyed K) (fuel : Nat) :
    ∀ t' ∈ ts.lineageFrom fuel t, t'.Keyed K := by
  induction fuel generalizing t with
  | zero => exact nofun
  | succ fuel ih =>
    unfold TypeTable.lineageFrom
    refine List.forall_mem_cons.mpr ⟨ht, ?_⟩
    split
    · next p hp =>
      obtain ⟨_, -, hp⟩ := Option.bind_eq_some_iff.mp hp
      exact ih (h.find? hp)
    · exact nofun

variable (hK : ∀ s, K (Value.normalizeKey s))
include hK

/-- A new object of a type. -/
theorem instance? (h : ts.Keyed K) {object : Value} (hobject : ts.instance? name = some object) :
    object.Keyed K := by
  obtain ⟨t, ht, rfl⟩ := Option.map_eq_some_iff.mp hobject
  refine Value.keyed_tagged hK t.name ?_
  have hlineage := h.lineageFrom (h.find? ht) (ts.length + 1)
  unfold lineage
  generalize ts.lineageFrom (ts.length + 1) t = types at hlineage
  induction types with
  | nil => exact .nil
  | cons t' rest ih =>
    obtain ⟨ht', hrest⟩ := List.forall_mem_cons.mp hlineage
    refine (ih hrest).insertAll fun e he => ?_
    obtain ⟨f, hf, rfl⟩ := List.mem_map.mp he
    exact ⟨ht' f hf, Value.keyed_initial f.2⟩

omit hK in
/-- A condition that is true of all texts is true of all fields. -/
theorem of_all (h : ∀ k, K k) (ts : TypeTable) : ts.Keyed K :=
  fun _ _ f _ => h f.1

end TypeTable.Keyed

section Names

variable (hK : ∀ s, K (Value.normalizeKey s))
include hK

/-- The fields of a type in upper case have allowed names. -/
theorem TypeInfo.keyed_canonical (t : TypeInfo) : t.canonical.Keyed K := by
  intro f hf
  obtain ⟨g, -, rfl⟩ := List.mem_map.mp hf
  exact Text.key_upper hK g.1

/-- The fields of a type that a program declares have allowed names. -/
theorem TypeInfo.keyed_ofDecl (d : TypeDecl) : (ofDecl d).Keyed K := by
  intro f hf
  obtain ⟨g, -, rfl⟩ := List.mem_map.mp hf
  exact g.1.key_name hK

end Names

/-! ## Hosts -/

/-- The names of the methods in the namespaces of a host satisfy a condition. -/
def Namespaces.Keyed (K : String → Prop) (ns : Namespaces) : Prop :=
  ∀ entry ∈ ns, ∀ method ∈ entry.2, K method.1

/-- **What is asked of a host.**  Natives and hooks answer keyed values with keyed ones, and the
names that the host has registered may be keys. -/
structure Host.Keyed (K : String → Prop) (host : Host) : Prop where
  natives : ∀ name args, Value.AllKeyed K args →
    Gives (Value.Keyed K) (host.natives.call name args).result
  read : ∀ hook ∈ host.hooks.read, ∀ object member v, object.Keyed K →
    hook object member = some v → v.Keyed K
  types : host.types.Keyed K
  namespaces : host.namespaces.Keyed K

namespace Namespaces.Keyed

variable {ns : Namespaces} (hK : ∀ s, K (Value.normalizeKey s))
include hK

/-- Registering a namespace puts the names of its methods in upper case. -/
theorem register (h : ns.Keyed K) (name : String) (methods : List (String × String)) :
    (ns.register name methods).Keyed K := by
  intro entry hentry
  rcases Table.mem_of_mem_insert hentry with rfl | hentry
  · -- The methods that the namespace had, and then the new ones in upper case.
    have hold : ∀ method ∈ (Table.get? ns (Text.upper name)).getD [], K method.1 := by
      cases hget : Table.get? ns (Text.upper name) with
      | none => exact nofun
      | some old => exact h _ (Table.mem_of_get? hget)
    dsimp only
    generalize (Table.get? ns (Text.upper name)).getD [] = old at hold
    clear hentry
    induction methods generalizing old with
    | nil => exact hold
    | cons method rest ih =>
      refine ih _ fun m hm => ?_
      rcases Table.mem_of_mem_insert hm with rfl | hm
      · exact Text.key_upper hK method.1
      · exact hold m hm
  · exact h entry hentry

/-- A namespace as a value. -/
theorem object? (h : ns.Keyed K) {name : String} {object : Value}
    (hobject : ns.object? name = some object) : object.Keyed K := by
  obtain ⟨methods, hmethods, rfl⟩ := Option.map_eq_some_iff.mp hobject
  refine Value.keyed_map.mpr (.insertAll (.ofList ?_) fun e he => ?_)
  · exact .cons (Value.key_own hK (by decide)) (.str _)
      (.cons (Value.key_own hK (by decide)) (.str _) .nil)
  · obtain ⟨method, hmethod, rfl⟩ := List.mem_map.mp he
    exact ⟨h _ (Table.mem_of_get? hmethods) method hmethod, Value.keyed_namespaceMethod hK _ _ _⟩

end Namespaces.Keyed

theorem Host.Keyed.of_all (h : ∀ k, K k) (host : Host) : host.Keyed K where
  natives _ _ _ v _ := Value.keyed_of_all h v
  read _ _ _ _ v _ _ := Value.keyed_of_all h v
  types := .of_all h _
  namespaces _ _ method _ := h method.1

/-- What the hooks answer for a member of a keyed object is keyed. -/
theorem Host.Keyed.resolve? {host : Host} (h : host.Keyed K) {object v : Value} {member : String}
    (hobject : object.Keyed K) (hv : host.hooks.resolve? object member = some v) : v.Keyed K := by
  obtain ⟨hook, hhook, hv⟩ := List.exists_of_findSome?_eq_some hv
  exact h.read hook (List.mem_reverse.mp hhook) object member v hobject hv

/-! ## Machines -/

/-- The names and the keys in a machine satisfy a condition. -/
structure Machine.Keyed (K : String → Prop) (m : Machine) : Prop where
  chain : m.chain.Keyed K
  types : m.types.Keyed K

namespace Machine.Keyed

/-- A condition that is true of all texts is true of every machine. -/
theorem of_all (h : ∀ k, K k) (m : Machine) : m.Keyed K :=
  ⟨.of_all h _, .of_all h _⟩

variable {m : Machine} {cx : Context}

/-- A machine learns the body of a lambda. -/
theorem learn (h : m.Keyed K) (label : Nat) (r : Routine) : (m.learn label r).Keyed K := by
  unfold Machine.learn
  split
  · exact h
  · exact ⟨h.chain, h.types⟩

/-- A machine loads a procedure. -/
theorem loadProcedure (h : m.Keyed K) (name : String) (p : Procedure) :
    (m.loadProcedure name p).Keyed K := by
  cases p <;> exact ⟨h.chain, h.types⟩

variable (hK : ∀ s, K (Value.normalizeKey s))
include hK

/-- A machine loads a type with its methods. -/
theorem loadType (h : m.Keyed K) (d : TypeDecl) : (m.loadType d).Keyed K := by
  have hstart : ({ m with types := m.types.register (.ofDecl d) } : Machine).Keyed K :=
    ⟨h.chain, h.types.register (TypeInfo.keyed_ofDecl hK d)⟩
  unfold Machine.loadType
  generalize ({ m with types := m.types.register (.ofDecl d) } : Machine) = m₀ at hstart
  generalize d.methods = methods
  induction methods generalizing m₀ with
  | nil => exact hstart
  | cons p rest ih => exact ih _ (hstart.loadProcedure _ _)

theorem loadStmt (h : m.Keyed K) (s : Stmt) : (m.loadStmt s).Keyed K := by
  cases s with
  | procedure p => exact h.loadProcedure _ p
  | typeBlock d => exact h.loadType hK d
  | _ => exact h

/-- **A machine loads a program and stays keyed.** -/
theorem load (h : m.Keyed K) (p : Program) : (m.load p).Keyed K := by
  obtain ⟨statements⟩ := p
  unfold Machine.load
  dsimp only
  induction statements generalizing m with
  | nil => exact h
  | cons s rest ih => exact ih (h.loadStmt hK s)

/-! ### What a machine yields -/

variable (h : m.Keyed K) (hhost : cx.host.Keyed K)
include h hhost

/-- A new object of a type of the program or of the host is keyed. -/
theorem instance? {name : String} {object : Value} (hobject : m.instance? cx name = some object) :
    object.Keyed K := by
  rcases Option.or_eq_some_iff.mp hobject with hobject | ⟨-, hobject⟩
  · exact h.types.instance? hK hobject
  · exact hhost.types.instance? hK hobject

omit h hhost in
/-- A method that a member stands for is keyed if its object is. -/
theorem typeMethod? {object v : Value} (hobject : object.Keyed K) {type member : String}
    (hv : m.typeMethod? cx object type member = some v) : v.Keyed K := by
  unfold Machine.typeMethod? at hv
  dsimp only at hv
  split at hv
  · cases hv
    exact Value.keyed_boundMethod hK hobject _ _
  · cases hv

omit h hhost in
/-- A member of a keyed map is keyed: a field, a field further inside, or a method as a value. -/
theorem mapMember? {fields : Table Value} {member : String} {v : Value}
    (hfields : (Value.map fields).Keyed K) (hv : m.mapMember? cx fields member = some v) :
    v.Keyed K := by
  rcases Option.or_eq_some_iff.mp hv with hv | ⟨-, hv⟩
  · exact Value.keyed_of_lookup? (Value.keyed_map.mp hfields) hv
  rcases Option.or_eq_some_iff.mp hv with hv | ⟨-, hv⟩
  · split at hv
    · exact Value.keyed_of_getFields? hfields hv
    · cases hv
  rcases Option.or_eq_some_iff.mp hv with hv | ⟨-, hv⟩
  · unfold Machine.namespaceMethod? at hv
    split at hv
    · obtain ⟨ns, -, hv⟩ := Option.bind_eq_some_iff.mp hv
      obtain ⟨function, -, hv⟩ := Option.bind_eq_some_iff.mp hv
      cases hv
      exact Value.keyed_namespaceMethod hK _ _ _
    · cases hv
  · obtain ⟨tag, -, hv⟩ := Option.bind_eq_some_iff.mp hv
    exact typeMethod? hK hfields hv

omit h hhost in
/-- A member of a text or of an array is keyed: a length, or a method as a value. -/
theorem builtinMember? {object v : Value} (hobject : object.Keyed K) {type member : String}
    {length : Nat} (hv : m.builtinMember? cx object type member length = some v) : v.Keyed K := by
  rcases Option.or_eq_some_iff.mp hv with hv | ⟨-, hv⟩
  · exact typeMethod? hK hobject hv
  · split at hv
    · cases hv
      exact .int _
    · cases hv
      exact .int _
    · cases hv

omit h in
/-- What a member of an object stands for. -/
theorem member? {object v : Value} (hobject : object.Keyed K) {member : String}
    (hv : m.member? cx object member = some v) : v.Keyed K := by
  rcases Option.or_eq_some_iff.mp hv with hv | ⟨-, hv⟩
  · exact hhost.resolve? hobject hv
  · cases object with
    | map fields => exact mapMember? hK hobject hv
    | str s => exact builtinMember? hK hobject hv
    | array items => exact builtinMember? hK hobject hv
    | _ => cases hv

omit h in
/-- A member is keyed even where there is none, for then it is nothing. -/
theorem memberOf {object : Value} (hobject : object.Keyed K) (member : String) :
    (m.memberOf cx object member).Keyed K :=
  Value.keyed_getD fun _ hv => member? hK hhost hobject hv

end Machine.Keyed

end BasicScript
