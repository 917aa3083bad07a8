import Rulebook.Proofs.Record.Writing

/-!
# What writing changes

A text that is written to an attribute becomes its value, and a group without rows gets a row for
it. All that is read of other attributes stays, but for the columns of a group that gets its first
row, which read as empty there. The readers are tied to each other by the column: the values are the
column in the rows that have the attribute, and the value is the column in the first row if that row
has it.
-/

namespace Rulebook

namespace Record

/-- A row has a text under a number. -/
def holds (attributeId : UInt32) (row : Row) : Bool := (row.find? attributeId).isSome

/-- The rows of the group of an attribute, each with the text that the column has there. -/
def listed (record : Record) (attr : Attribute) : List (Row × String) :=
  (record.rows attr.groupId).zip (record.column attr)

/-- What the three readers of an attribute have in common. -/
structure Coherent (record : Record) (attr : Attribute) : Prop where
  /-- The column has one text for each row. -/
  length : (record.column attr).length = (record.rows attr.groupId).length
  /-- The values are the column in the rows that have the attribute. -/
  values : record.values attr =
    ((record.listed attr).filter fun entry => holds attr.attributeId entry.1).map Prod.snd
  /-- The value is the column in the first row, if this row has the attribute. -/
  value : record.value? attr =
    ((record.listed attr).head?.filter fun entry => holds attr.attributeId entry.1).map Prod.snd

/-- The texts of rows that have an attribute are those that the column has there. -/
theorem filterMap_find?_eq (rows : Group) (attributeId : UInt32) :
    rows.filterMap (fun row => row.find? attributeId) =
      ((rows.zip (rows.map fun row => (row.find? attributeId).getD "")).filter
        fun entry => holds attributeId entry.1).map Prod.snd := by
  induction rows with
  | nil => rfl
  | cons row more ih =>
    cases hfound : row.find? attributeId with
    | none => simp [holds, hfound, ih]
    | some text => simp [holds, hfound, ih]

/-- The readers of every attribute agree in every record. -/
theorem coherent (record : Record) (attr : Attribute) : record.Coherent attr := by
  refine ⟨List.length_map _, filterMap_find?_eq _ _, ?_⟩
  rw [value?, listed, column]
  cases record.rows attr.groupId with
  | nil => rfl
  | cons row more =>
    cases hfound : row.find? attr.attributeId <;> simp [holds, hfound, Option.filter_some]

/-- What a record has become when a text was written to an attribute. -/
structure Updated (before : Record) (attr : Attribute) (text : String) (after : Record) : Prop where
  /-- The text is the value of the attribute. -/
  value : after.value? attr = some text
  /-- The group has its rows, or one if it had none. -/
  length : (after.rows attr.groupId).length = max 1 (before.rows attr.groupId).length
  /-- The value and the values of every other attribute stay. Its column stays too, unless it is in
  the group and the group had no rows: then the column is one empty text. -/
  others : ∀ other : Attribute,
    ¬(other.groupId = attr.groupId ∧ other.attributeId = attr.attributeId) →
    after.value? other = before.value? other ∧ after.values other = before.values other ∧
      after.column other =
        if other.groupId = attr.groupId ∧ before.rows attr.groupId = [] then [""]
        else before.column other
  /-- The rows behind the first one stay in every group. -/
  later : ∀ groupId, (after.rows groupId).tail = (before.rows groupId).tail
  /-- The other groups stay, and none of them is made. -/
  groups : ∀ groupId ≠ attr.groupId, after.group? groupId = before.group? groupId

/-- The cells of another attribute stay, unless it gets an empty one in the first row of the
group. -/
theorem cells_setValue_of_ne (record : Record) {attr other : Attribute} (text : String)
    (h : ¬(other.groupId = attr.groupId ∧ other.attributeId = attr.attributeId)) :
    (record.setValue attr text).cells other.groupId other.attributeId =
      if other.groupId = attr.groupId ∧ record.rows attr.groupId = [] then [none]
      else record.cells other.groupId other.attributeId := by
  rw [cells_setValue]
  by_cases hg : other.groupId = attr.groupId
  · have ha : other.attributeId ≠ attr.attributeId := fun ha => h ⟨hg, ha⟩
    rw [if_pos hg, if_neg ha, hg, cells]
    cases record.rows attr.groupId with
    | nil => simp
    | cons first more => simp
  · rw [if_neg hg, if_neg fun hboth => hg hboth.1]

/-- What is read of another attribute stays. -/
theorem readers_setValue_of_ne (record : Record) {attr other : Attribute} (text : String)
    (h : ¬(other.groupId = attr.groupId ∧ other.attributeId = attr.attributeId)) :
    (record.setValue attr text).value? other = record.value? other ∧
      (record.setValue attr text).values other = record.values other ∧
      (record.setValue attr text).column other =
        if other.groupId = attr.groupId ∧ record.rows attr.groupId = [] then [""]
        else record.column other := by
  have hcells := record.cells_setValue_of_ne text h
  rw [value?_eq, values_eq, column_eq, hcells]
  split
  · next hnew =>
    have hnone : record.cells other.groupId other.attributeId = [] := by
      rw [cells, hnew.1, hnew.2]
      rfl
    rw [value?_eq, values_eq, hnone]
    exact ⟨rfl, rfl, rfl⟩
  · rw [value?_eq, values_eq, column_eq]
    exact ⟨rfl, rfl, rfl⟩

/-- The first row is changed or made, and no other row. -/
theorem length_setFirst (rows : Group) (attributeId : UInt32) (text : String) :
    (setFirst rows attributeId text).length = max 1 rows.length := by
  cases rows with
  | nil => rfl
  | cons first more => simp [setFirst]

theorem tail_setFirst (rows : Group) (attributeId : UInt32) (text : String) :
    (setFirst rows attributeId text).tail = rows.tail := by
  cases rows <;> rfl

/-- Writing a text makes of a record what it shall become. -/
theorem updated_setValue (record : Record) (attr : Attribute) (text : String) :
    record.Updated attr text (record.setValue attr text) where
  value := value?_setValue record attr text
  length := by rw [rows_setValue, if_pos rfl, length_setFirst]
  others := fun _ => record.readers_setValue_of_ne text
  later := fun groupId => by
    rw [rows_setValue]
    split
    · exact tail_setFirst _ _ _
    · rfl
  groups := fun groupId hne => by rw [group?_setValue, if_neg hne]

/-- A text that is written to an attribute is its value, and nothing else that is read is lost or
changed; a text that is written after it to the same attribute makes the record what it would be
without the first one; and before and after, the values and the value of every attribute are those
of its column in the rows that have the attribute. -/
theorem setValue_updates (record : Record) (attr : Attribute) (text : String) :
    record.Updated attr text (record.setValue attr text) ∧
      (∀ text', (record.setValue attr text).setValue attr text' = record.setValue attr text') ∧
      ∀ other, record.Coherent other ∧ (record.setValue attr text).Coherent other :=
  ⟨record.updated_setValue attr text, record.setValue_setValue rfl rfl text,
    fun other => ⟨record.coherent other, (record.setValue attr text).coherent other⟩⟩

/-- The first row of a group without rows is made for a text, and another attribute reads as empty
there. -/
example :
    let record : Record := ⟨Table.empty.insert 10 []⟩
    let attr : Attribute := ⟨1, 10, "A"⟩
    let other : Attribute := ⟨2, 10, "B"⟩
    record.column other = [] ∧ (record.setValue attr "x").column other = [""] ∧
      (record.setValue attr "x").values other = [] := by
  decide +kernel

end Record

end Rulebook
