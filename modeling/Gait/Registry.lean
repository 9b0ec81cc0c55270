import Gait.Program

/-!
# Registries

A `Registry` holds programs under names, each name at most once.  Entries stand in ascending order
of names.  `get?_insert_self` and `get?_insert_of_ne` say what inserting does to the look-up,
`mem_insert` what it does to the entries.
-/

namespace Gait

/-- Insert an entry into an ascending list, in place of the entry of its name if there is one. -/
def insertEntry (name : String) (p : Program) : List (String × Program) → List (String × Program)
  | [] => [(name, p)]
  | e :: rest =>
    if name < e.1 then (name, p) :: e :: rest
    else if name = e.1 then (name, p) :: rest
    else e :: insertEntry name p rest

/-- An inserted list holds the new entry and old ones of other names. -/
theorem mem_insertEntry {name : String} {p : Program} {entries : List (String × Program)}
    {e : String × Program} (h : e ∈ insertEntry name p entries) : e = (name, p) ∨ e ∈ entries := by
  induction entries with
  | nil => simpa [insertEntry] using h
  | cons a rest ih =>
    rw [insertEntry] at h
    split at h
    · simpa using h
    · split at h
      · rcases List.mem_cons.1 h with h | h
        · exact .inl h
        · exact .inr (List.mem_cons_of_mem _ h)
      · rcases List.mem_cons.1 h with rfl | h
        · exact .inr List.mem_cons_self
        · rcases ih h with h | h
          · exact .inl h
          · exact .inr (List.mem_cons_of_mem _ h)

theorem insertEntry_ascending {name : String} {p : Program} {entries : List (String × Program)}
    (h : entries.Pairwise (·.1 < ·.1)) : (insertEntry name p entries).Pairwise (·.1 < ·.1) := by
  induction entries with
  | nil => simp [insertEntry]
  | cons a rest ih =>
    obtain ⟨head, tail⟩ := List.pairwise_cons.1 h
    rw [insertEntry]
    split
    · next lt =>
      refine List.pairwise_cons.2 ⟨fun e he => ?_, h⟩
      rcases List.mem_cons.1 he with rfl | he
      · exact lt
      · exact String.lt_trans lt (head e he)
    · split
      · next eq =>
        refine List.pairwise_cons.2 ⟨fun e he => ?_, tail⟩
        exact eq ▸ head e he
      · next nlt ne =>
        have gt : a.1 < name := Decidable.byContradiction fun ngt =>
          ne (String.le_antisymm (String.not_lt.1 ngt) (String.not_lt.1 nlt))
        refine List.pairwise_cons.2 ⟨fun e he => ?_, ih tail⟩
        rcases mem_insertEntry he with rfl | he
        · exact gt
        · exact head e he

/-- Programs under names, in ascending order of names. -/
structure Registry where
  entries : List (String × Program)
  ascending : entries.Pairwise (·.1 < ·.1)

namespace Registry

/-- A registry without programs. -/
def empty : Registry := ⟨[], List.Pairwise.nil⟩

/-- Put a program under a name, in place of the one that was there. -/
def insert (r : Registry) (name : String) (p : Program) : Registry :=
  ⟨insertEntry name p r.entries, insertEntry_ascending r.ascending⟩

/-- The program of a name, if there is one. -/
def get? (r : Registry) (name : String) : Option Program := r.entries.lookup name

/-- Whether there is a program of a name. -/
def contains (r : Registry) (name : String) : Bool := (r.get? name).isSome

/-- The names of all programs. -/
def names (r : Registry) : List String := r.entries.map (·.1)

@[simp] theorem get?_empty (name : String) : empty.get? name = none := rfl

theorem get?_insert_self (r : Registry) (name : String) (p : Program) :
    (r.insert name p).get? name = some p := by
  simp only [get?, insert]
  induction r.entries with
  | nil => simp [insertEntry]
  | cons e rest ih =>
    rw [insertEntry]
    split
    · simp
    · split
      · simp
      · next ne =>
        have hne : (name == e.1) = false := by simpa using ne
        rw [List.lookup_cons, hne]
        exact ih

theorem get?_insert_of_ne (r : Registry) {name other : String} (p : Program) (h : other ≠ name) :
    (r.insert name p).get? other = r.get? other := by
  have hne : (other == name) = false := by simpa using h
  simp only [get?, insert]
  induction r.entries with
  | nil => simp [insertEntry, List.lookup_cons, hne]
  | cons e rest ih =>
    rw [insertEntry]
    split
    · simp [List.lookup_cons, hne]
    · split
      · next eq =>
        have hold : (other == e.1) = false := eq ▸ hne
        rw [List.lookup_cons, List.lookup_cons, hne, hold]
      · rw [List.lookup_cons, List.lookup_cons, ih]

/-- After an insertion there are the new entry and old ones. -/
theorem mem_insert {r : Registry} {name : String} {p : Program} {e : String × Program}
    (h : e ∈ (r.insert name p).entries) : e = (name, p) ∨ e ∈ r.entries :=
  mem_insertEntry h

/-- Names stand in ascending order, each once. -/
theorem names_ascending (r : Registry) : r.names.Pairwise (· < ·) :=
  List.pairwise_map.2 r.ascending

end Registry

end Gait
