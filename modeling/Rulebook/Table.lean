/-!
# Tables with numbered entries

A table holds values under numbers of 32 bits, each number at most once, in ascending order. Two
tables with the same entries are equal, whatever the order in which the entries were made.

The law `find?_insert` says what looking up gives after an insertion, and `find?_eq_some_iff` that
the entries are exactly what looking up finds.
-/

namespace Rulebook

/-- Puts a value under a number into an ascending list, in place of the value that was there. -/
def insertEntry {α : Type} (key : UInt32) (value : α) :
    List (UInt32 × α) → List (UInt32 × α)
  | [] => [(key, value)]
  | entry :: more =>
    if key < entry.1 then (key, value) :: entry :: more
    else if key = entry.1 then (key, value) :: more
    else entry :: insertEntry key value more

/-- A number in the list after an insertion is the new one or was there before. -/
theorem fst_of_mem_insertEntry {α : Type} {key : UInt32} {value : α}
    {entries : List (UInt32 × α)} {entry : UInt32 × α}
    (h : entry ∈ insertEntry key value entries) : entry.1 = key ∨ entry ∈ entries := by
  induction entries with
  | nil => simp [insertEntry] at h; simp [h]
  | cons first more ih =>
    simp only [insertEntry] at h
    split at h
    · rcases List.mem_cons.mp h with rfl | h
      · exact .inl rfl
      · exact .inr h
    · split at h
      · rcases List.mem_cons.mp h with rfl | h
        · exact .inl rfl
        · exact .inr (List.mem_cons_of_mem _ h)
      · rcases List.mem_cons.mp h with rfl | h
        · exact .inr List.mem_cons_self
        · rcases ih h with h | h
          · exact .inl h
          · exact .inr (List.mem_cons_of_mem _ h)

/-- Insertion keeps a list ascending. -/
theorem pairwise_insertEntry {α : Type} (key : UInt32) (value : α) {entries : List (UInt32 × α)}
    (h : entries.Pairwise fun a b => a.1 < b.1) :
    (insertEntry key value entries).Pairwise fun a b => a.1 < b.1 := by
  induction entries with
  | nil => simp [insertEntry]
  | cons first more ih =>
    have ⟨head, tail⟩ := List.pairwise_cons.mp h
    simp only [insertEntry]
    split
    · next less =>
      refine List.pairwise_cons.mpr ⟨fun entry member => ?_, h⟩
      rcases List.mem_cons.mp member with rfl | member
      · exact less
      · exact UInt32.lt_trans less (head _ member)
    · split
      · next _ same => exact List.pairwise_cons.mpr ⟨fun entry member => same ▸ head _ member, tail⟩
      · next notLess notSame =>
        refine List.pairwise_cons.mpr ⟨fun entry member => ?_, ih tail⟩
        rcases fst_of_mem_insertEntry member with same | member
        · rw [same]
          rcases UInt32.lt_or_eq_of_le (UInt32.not_lt.mp notLess) with less | same
          · exact less
          · exact absurd same.symm notSame
        · exact head _ member

/-- Values under numbers. -/
structure Table (α : Type) where
  /-- The entries in ascending order of their numbers. -/
  entries : List (UInt32 × α) := []
  /-- The numbers ascend, so each is there at most once. -/
  ascending : entries.Pairwise fun a b => a.1 < b.1 := by exact List.Pairwise.nil
  deriving DecidableEq

namespace Table

variable {α : Type}

/-- The table without entries. -/
def empty : Table α := {}

instance : Inhabited (Table α) := ⟨empty⟩

/-- The value under a number. -/
def find? (table : Table α) (key : UInt32) : Option α := table.entries.lookup key

/-- Puts a value under a number, in place of the value that was there. -/
def insert (table : Table α) (key : UInt32) (value : α) : Table α :=
  ⟨insertEntry key value table.entries, pairwise_insertEntry key value table.ascending⟩

/-- The table of a list of entries, of which the last one under a number counts. -/
def ofList (entries : List (UInt32 × α)) : Table α :=
  entries.foldl (fun table entry => table.insert entry.1 entry.2) empty

/-- The number of entries. -/
def size (table : Table α) : Nat := table.entries.length

/-- Looking up behind a first entry. -/
theorem lookup_cons_eq (key other : UInt32) (value : α) (more : List (UInt32 × α)) :
    List.lookup other ((key, value) :: more) =
      if other = key then some value else more.lookup other := by
  rw [List.lookup_cons]
  by_cases same : other = key
  · simp [same]
  · rw [beq_false_of_ne same, if_neg same]

/-- Looking up in a list with an entry put in. -/
theorem lookup_insertEntry (key other : UInt32) (value : α) (entries : List (UInt32 × α)) :
    (insertEntry key value entries).lookup other =
      if other = key then some value else entries.lookup other := by
  induction entries with
  | nil => simp [insertEntry, lookup_cons_eq]
  | cons first more ih =>
    obtain ⟨number, item⟩ := first
    simp only [insertEntry]
    split
    · rw [lookup_cons_eq]
    · split
      · next _ eq =>
        subst eq
        rw [lookup_cons_eq, lookup_cons_eq]
        split <;> rfl
      · next _ notSame =>
        rw [lookup_cons_eq, ih, lookup_cons_eq]
        by_cases same : other = key
        · have : other ≠ number := fun eq => notSame (same ▸ eq)
          rw [if_neg this, if_pos same, if_pos same]
        · rw [if_neg same, if_neg same]

/-- Looking up after an insertion. -/
theorem find?_insert (table : Table α) (key other : UInt32) (value : α) :
    (table.insert key value).find? other = if other = key then some value else table.find? other :=
  lookup_insertEntry key other value table.entries

@[simp] theorem find?_insert_self (table : Table α) (key : UInt32) (value : α) :
    (table.insert key value).find? key = some value := by simp [find?_insert]

theorem find?_insert_of_ne (table : Table α) {key other : UInt32} (value : α) (h : other ≠ key) :
    (table.insert key value).find? other = table.find? other := by simp [find?_insert, h]

@[simp] theorem find?_empty (key : UInt32) : (empty : Table α).find? key = none := rfl

/-- An entry of an ascending list is what looking up its number gives. -/
theorem lookup_eq_some_iff {entries : List (UInt32 × α)}
    (h : entries.Pairwise fun a b => a.1 < b.1) {key : UInt32} {value : α} :
    entries.lookup key = some value ↔ (key, value) ∈ entries := by
  induction entries with
  | nil => simp
  | cons first more ih =>
    have ⟨head, tail⟩ := List.pairwise_cons.mp h
    obtain ⟨number, item⟩ := first
    simp only [List.lookup_cons, List.mem_cons, Prod.mk.injEq]
    by_cases same : key = number
    · subst same
      simp only [BEq.rfl, true_and]
      constructor
      · intro found; cases found; exact .inl rfl
      · rintro (rfl | member)
        · rfl
        · exact absurd (head _ member) (UInt32.lt_irrefl _)
    · have unlike : (key == number) = false := by simpa using same
      simp only [unlike, ih tail, same, false_and, false_or]

/-- The entries of a table are what looking up finds. -/
theorem find?_eq_some_iff {table : Table α} {key : UInt32} {value : α} :
    table.find? key = some value ↔ (key, value) ∈ table.entries :=
  lookup_eq_some_iff table.ascending

end Table

end Rulebook
