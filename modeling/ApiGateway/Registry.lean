import ApiGateway.Bytes

/-!
# Registries

A registry holds entries by name.  Inserting under a name that is taken replaces
the entry.

Main definitions:

- `Registry.insert`, `Registry.find?`, `Registry.size`.

Main results:

- `Registry.find?_insert`: looking up after inserting.
- `Registry.find?_ofList`, `Registry.find?_ofList_of_nodup`: of several entries under one name
  the last one is found.
-/

namespace ApiGateway

/-- Entries by name. -/
structure Registry (α : Type) where
  entries : List (Bytes × α)

namespace Registry

variable {α : Type}

/-- The registry without entries. -/
def empty : Registry α :=
  ⟨[]⟩

/-- Replaces the entry of that name in a list, or appends one. -/
def insertInto (name : Bytes) (entry : α) : List (Bytes × α) → List (Bytes × α)
  | [] => [(name, entry)]
  | first :: rest =>
    if name = first.1 then (name, entry) :: rest else first :: insertInto name entry rest

/-- Puts an entry under a name, in place of an earlier one. -/
def insert (r : Registry α) (name : Bytes) (entry : α) : Registry α :=
  ⟨insertInto name entry r.entries⟩

/-- The entry of a name. -/
def find? (r : Registry α) (name : Bytes) : Option α :=
  r.entries.lookup name

/-- The number of entries. -/
def size (r : Registry α) : Nat :=
  r.entries.length

/-- Inserts entries in order. -/
def ofList (entries : List (Bytes × α)) : Registry α :=
  entries.foldl (fun r e => r.insert e.1 e.2) empty

@[simp]
theorem find?_empty (name : Bytes) : (empty : Registry α).find? name = none :=
  rfl

/-- Looking up asks the first entry, then the others. -/
theorem lookup_cons_eq_ite (entries : List (Bytes × α)) (name other : Bytes) (entry : α) :
    ((name, entry) :: entries).lookup other =
      if other = name then some entry else entries.lookup other := by
  rw [List.lookup_cons]
  by_cases h : other = name
  · rw [if_pos h, beq_iff_eq.2 h]
  · rw [if_neg h, beq_false_of_ne h]

/-- The name of the insertion leads to its entry, and every other name where it led before. -/
@[simp]
theorem find?_insert (r : Registry α) (name other : Bytes) (entry : α) :
    (r.insert name entry).find? other = if other = name then some entry else r.find? other := by
  obtain ⟨entries⟩ := r
  simp only [find?, insert]
  induction entries with
  | nil => simp [insertInto, lookup_cons_eq_ite]
  | cons first rest ih =>
    obtain ⟨key, old⟩ := first
    by_cases same : name = key
    · by_cases h : other = key <;> simp [insertInto, same, lookup_cons_eq_ite, h]
    · by_cases h : other = key
      · simp [insertInto, same, h, Ne.symm same]
      · simp [insertInto, same, lookup_cons_eq_ite, h, ih]

/-- Of several entries under one name the last one is found. -/
theorem find?_ofList (entries : List (Bytes × α)) (name : Bytes) :
    (ofList entries).find? name = entries.reverse.lookup name := by
  have hreverse (l : List (Bytes × α)) : (ofList l.reverse).find? name = l.lookup name := by
    induction l with
    | nil => rfl
    | cons first rest ih =>
        have hlast : ofList (first :: rest).reverse =
            (ofList rest.reverse).insert first.1 first.2 := by
          simp [ofList, List.foldl_append]
        rw [hlast, find?_insert, ih, lookup_cons_eq_ite]
  rw [← hreverse, List.reverse_reverse]

/-- What is found has been entered under its name. -/
theorem mem_of_find?_ofList {entries : List (Bytes × α)} {name : Bytes} {entry : α}
    (h : (ofList entries).find? name = some entry) : (name, entry) ∈ entries := by
  rw [find?_ofList, List.lookup_eq_some_iff] at h
  obtain ⟨before, after, hsplit, -⟩ := h
  have hmem : (name, entry) ∈ entries.reverse := by
    rw [hsplit]
    exact List.mem_append_right before List.mem_cons_self
  exact List.mem_reverse.1 hmem

/-- Among entries with different names each one is found under its name. -/
theorem find?_ofList_of_nodup {entries : List (Bytes × α)} {name : Bytes} {entry : α}
    (hdistinct : (entries.map Prod.fst).Nodup) (hmem : (name, entry) ∈ entries) :
    (ofList entries).find? name = some entry := by
  have hlookup (l : List (Bytes × α)) (hnodup : (l.map Prod.fst).Nodup)
      (hl : (name, entry) ∈ l) : l.lookup name = some entry := by
    induction l with
    | nil => cases hl
    | cons first rest ih =>
        obtain ⟨key, other⟩ := first
        rw [List.map_cons, List.nodup_cons] at hnodup
        rw [lookup_cons_eq_ite]
        rcases List.mem_cons.1 hl with hfirst | hrest
        · cases hfirst
          rw [if_pos rfl]
        · have hne : name ≠ key := by
            rintro rfl
            exact hnodup.1 (List.mem_map.2 ⟨_, hrest, rfl⟩)
          rw [if_neg hne]
          exact ih hnodup.2 hrest
  rw [find?_ofList]
  refine hlookup entries.reverse ?_ (List.mem_reverse.2 hmem)
  rw [List.map_reverse]
  exact (List.reverse_perm _).nodup_iff.2 hdistinct

end Registry
end ApiGateway
