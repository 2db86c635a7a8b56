/-!
# Tables

A table gives values to names.  It is a list of entries in ascending order of the names, so that its
order is that of the names whatever the order in which they were entered.

The two lemmas `get?_insert_self` and `get?_insert_of_ne` say all about an insertion that a reader
of the table can see.  They hold of every list of entries, ordered or not.
-/

namespace BasicScript

/-- Values by name, in ascending order of the names. -/
abbrev Table (α : Type) := List (String × α)

namespace Table

variable {α β : Type}

/-- The value of a name. -/
def get? : Table α → String → Option α
  | [], _ => none
  | (name, value) :: rest, k => if name = k then some value else get? rest k

/-- Gives a value to a name, in place of the one it had. -/
def insert : Table α → String → α → Table α
  | [], k, v => [(k, v)]
  | (name, value) :: rest, k, v =>
    if name = k then (k, v) :: rest
    else if k < name then (k, v) :: (name, value) :: rest
    else (name, value) :: insert rest k v

/-- The name has a value. -/
def contains (t : Table α) (k : String) : Bool :=
  (get? t k).isSome

/-- The names. -/
def keys (t : Table α) : List String :=
  t.map (·.1)

/-- Enters all entries of a list, later ones in place of earlier ones. -/
def insertAll (t : Table α) (entries : List (String × α)) : Table α :=
  entries.foldl (fun t e => insert t e.1 e.2) t

/-- The table of a list of entries. -/
def ofList (entries : List (String × α)) : Table α :=
  insertAll [] entries

@[simp]
theorem get?_nil (k : String) : get? ([] : Table α) k = none := rfl

@[simp]
theorem get?_insert_self (t : Table α) (k : String) (v : α) : get? (insert t k v) k = some v := by
  induction t with
  | nil => simp [insert, get?]
  | cons e rest ih =>
    obtain ⟨name, value⟩ := e
    simp only [insert]
    split
    · simp [get?]
    · split
      · simp [get?]
      · simp [get?, *]

theorem get?_insert_of_ne (t : Table α) {k k' : String} (v : α) (h : k ≠ k') :
    get? (insert t k v) k' = get? t k' := by
  induction t with
  | nil => simp [insert, get?, h]
  | cons e rest ih =>
    obtain ⟨name, value⟩ := e
    simp only [insert]
    split
    · next heq => subst heq; simp [get?, h]
    · split
      · simp [get?, h]
      · simp [get?, ih]

theorem mem_of_get? {t : Table α} {k : String} {v : α} (h : get? t k = some v) : (k, v) ∈ t := by
  induction t with
  | nil => cases h
  | cons e rest ih =>
    obtain ⟨name, value⟩ := e
    unfold get? at h
    split at h
    · next heq =>
      cases h
      rw [heq]
      exact List.mem_cons_self
    · exact List.mem_cons_of_mem _ (ih h)

theorem mem_of_mem_insert {t : Table α} {k : String} {v : α} {e : String × α}
    (h : e ∈ insert t k v) : e = (k, v) ∨ e ∈ t := by
  induction t with
  | nil => exact .inl (List.mem_singleton.mp h)
  | cons a rest ih =>
    obtain ⟨name, value⟩ := a
    unfold insert at h
    split at h
    · rcases List.mem_cons.mp h with rfl | h
      · exact .inl rfl
      · exact .inr (List.mem_cons_of_mem _ h)
    · split at h
      · exact List.mem_cons.mp h
      · rcases List.mem_cons.mp h with rfl | h
        · exact .inr List.mem_cons_self
        · exact (ih h).imp_right (List.mem_cons_of_mem _)

theorem mem_of_mem_insertAll {t entries : Table α} {e : String × α}
    (h : e ∈ insertAll t entries) : e ∈ t ∨ e ∈ entries := by
  induction entries generalizing t with
  | nil => exact .inl h
  | cons a rest ih =>
    rcases ih h with h | h
    · rcases mem_of_mem_insert h with rfl | h
      · exact .inr List.mem_cons_self
      · exact .inl h
    · exact .inr (List.mem_cons_of_mem a h)

end Table

end BasicScript
