import Rulebook.Evaluation.Execution

/-!
# The cells of a record

An attribute has a cell in each row of its group, which is empty where the row does not have it.
The three ways in which rules read an attribute are functions of its cells, and its cells after a
text was written are a function of those before. So nothing else of a record matters to a rule.
-/

namespace Rulebook

namespace Record

/-- The cells of an attribute, row by row; a group that was not made has no rows. -/
def cells (record : Record) (groupId attributeId : UInt32) : List (Option String) :=
  (record.rows groupId).map fun row => row.find? attributeId

/-- The text in one cell; there is none where there is no such row. -/
def cell? (record : Record) (groupId : UInt32) (row : Nat) (attributeId : UInt32) :
    Option String :=
  (record.cells groupId attributeId)[row]?.join

theorem value?_eq (record : Record) (attr : Attribute) :
    record.value? attr = (record.cells attr.groupId attr.attributeId).head?.join := by
  rw [value?, cells]
  cases record.rows attr.groupId <;> rfl

theorem values_eq (record : Record) (attr : Attribute) :
    record.values attr = (record.cells attr.groupId attr.attributeId).filterMap id := by
  rw [values, cells, List.filterMap_map]
  rfl

/-- The column of an attribute is what its cells hold, with an empty text for an empty cell. -/
theorem column_eq (record : Record) (attr : Attribute) :
    record.column attr =
      (record.cells attr.groupId attr.attributeId).map fun cell => cell.getD "" := by
  rw [column, cells, List.map_map]
  rfl

/-- The group that was written has its first row changed or made, and others are as they were. -/
theorem group?_setValue (record : Record) (attr : Attribute) (text : String) (groupId : UInt32) :
    (record.setValue attr text).group? groupId =
      if groupId = attr.groupId then
        some (setFirst (record.rows groupId) attr.attributeId text)
      else record.group? groupId := by
  rw [group?, setValue, Table.find?_insert]
  split
  · next same => rw [same]
  · rfl

/-- What the first cell holds after writing into its row, and all other cells as they were. -/
theorem cells_setValue (record : Record) (attr : Attribute) (text : String)
    (groupId attributeId : UInt32) :
    (record.setValue attr text).cells groupId attributeId =
      if groupId = attr.groupId then
        (if attributeId = attr.attributeId then some text
          else (record.cells groupId attributeId).head?.join) ::
            (record.cells groupId attributeId).tail
      else record.cells groupId attributeId := by
  rw [cells, rows_setValue]
  by_cases hg : groupId = attr.groupId
  · rw [if_pos hg, if_pos hg, cells]
    cases record.rows groupId with
    | nil => simp [setFirst, Table.find?_insert]
    | cons first more => simp [setFirst, Table.find?_insert]
  · rw [if_neg hg, if_neg hg, cells]

/-- One cell holds what was written, and all other cells hold what they held. -/
theorem cell?_setValue (record : Record) (attr : Attribute) (text : String) (groupId : UInt32)
    (row : Nat) (attributeId : UInt32) :
    (record.setValue attr text).cell? groupId row attributeId =
      if row = 0 ∧ groupId = attr.groupId ∧ attributeId = attr.attributeId then some text
      else record.cell? groupId row attributeId := by
  rw [cell?, cells_setValue]
  by_cases hg : groupId = attr.groupId
  · rw [if_pos hg, cell?]
    cases row with
    | zero =>
      by_cases ha : attributeId = attr.attributeId
      · simp [hg, ha]
      · simp [hg, ha, List.head?_eq_getElem?]
    | succ row => simp
  · rw [if_neg hg, if_neg fun h => hg h.2.1, cell?]

end Record

namespace Records

/-- The cells of an attribute in the record that is meant. -/
def cells (records : Records) (link : Link) : List (Option String) :=
  ((records.select? link.record).map fun record =>
    record.cells link.attr.groupId link.attr.attributeId).getD []

/-- The value of an attribute is in its first cell, and empty where that cell is. -/
theorem value_eq (records : Records) (link : Link) :
    records.value link = ((records.cells link).head?.join).getD "" := by
  rw [value, cells]
  cases records.select? link.record with
  | none => rfl
  | some record => simp [Record.value?_eq]

/-- The values of an attribute are those in its cells that are not empty. -/
theorem values_eq (records : Records) (link : Link) :
    records.values link = (records.cells link).filterMap id := by
  rw [values, cells]
  cases records.select? link.record with
  | none => rfl
  | some record => simp [Record.values_eq]

/-- The column of an attribute is what its cells hold, with an empty text for an empty cell. -/
theorem column_eq (records : Records) (link : Link) :
    records.column link = (records.cells link).map fun cell => cell.getD "" := by
  rw [column, cells]
  cases records.select? link.record with
  | none => rfl
  | some record => simp [Record.column_eq]

/-- What rules see of an attribute: its cells, and one empty cell where its group has no rows. -/
def seen (records : Records) (link : Link) : List (Option String) :=
  match records.cells link with
  | [] => [none]
  | cells => cells

/-- The value of an attribute is in the first cell that is seen, and empty where that cell is. -/
theorem value_eq_seen (records : Records) (link : Link) :
    records.value link = ((records.seen link).head?.join).getD "" := by
  rw [value_eq, seen]
  cases records.cells link <;> rfl

/-- The values of an attribute are those in the cells that are seen and are not empty. -/
theorem values_eq_seen (records : Records) (link : Link) :
    records.values link = (records.seen link).filterMap id := by
  rw [values_eq, seen]
  cases records.cells link <;> rfl

/-- Arithmetic takes from an attribute what the cells that are seen hold, with an empty text for an
empty cell. -/
theorem column_linked (records : Records) (link : Link) :
    (Source.linked link).column records = (records.seen link).map fun cell => cell.getD "" := by
  rw [Source.column, column_eq, seen]
  cases records.cells link <;> rfl

/-- A text cannot be written just where no record is meant. -/
theorem write?_eq_none_iff {records : Records} {link : Link} {text : String} :
    records.write? link text = none ↔ link.record = .none := by
  unfold write?
  cases link.record <;> simp

/-- A text is written into the record that is meant, and only there. -/
theorem write?_eq_some {records written : Records} {link : Link} {text : String}
    (h : records.write? link text = some written) :
    (link.record = .new ∧ written = { records with new := records.new.setValue link.attr text }) ∨
      (link.record = .old ∧
        written = { records with old := records.old.setValue link.attr text }) := by
  unfold write? at h
  cases hr : link.record with
  | new =>
    rw [hr] at h
    exact .inl ⟨rfl, (Option.some.inj h).symm⟩
  | old =>
    rw [hr] at h
    exact .inr ⟨rfl, (Option.some.inj h).symm⟩
  | none =>
    rw [hr] at h
    cases h

/-- The cells of an attribute after a text was written depend on what they were before, and on
nothing else. -/
theorem cells_write? {records written : Records} {link : Link} {text : String}
    (h : records.write? link text = some written) (other : Link) :
    written.cells other =
      if other.record = link.record ∧ other.attr.groupId = link.attr.groupId then
        (if other.attr.attributeId = link.attr.attributeId then some text
          else (records.cells other).head?.join) :: (records.cells other).tail
      else records.cells other := by
  rcases write?_eq_some h with ⟨hr, rfl⟩ | ⟨hr, rfl⟩
  all_goals
    rw [hr]
    cases ho : other.record <;>
      simp [cells, select?, ho, Record.cells_setValue]

/-- The value of the attribute that was written is the text, and other attributes keep theirs. -/
theorem value_write? {records written : Records} {link : Link} {text : String}
    (h : records.write? link text = some written) (other : Link) :
    written.value other =
      if other.record = link.record ∧ other.attr.groupId = link.attr.groupId ∧
        other.attr.attributeId = link.attr.attributeId then text
      else records.value other := by
  rw [value_eq, value_eq, cells_write? h]
  by_cases hg : other.record = link.record ∧ other.attr.groupId = link.attr.groupId
  · by_cases ha : other.attr.attributeId = link.attr.attributeId
    · rw [if_pos hg, if_pos ha, if_pos ⟨hg.1, hg.2, ha⟩]
      rfl
    · rw [if_pos hg, if_neg ha, if_neg fun h => ha h.2.2]
      rfl
  · rw [if_neg hg, if_neg fun h => hg ⟨h.1, h.2.1⟩]

/-- What is seen of an attribute stays where a text is written to another cell. -/
theorem seen_write? {records written : Records} {link : Link} {text : String}
    (h : records.write? link text = some written) {other : Link}
    (hne : ¬(other.record = link.record ∧ other.attr.groupId = link.attr.groupId ∧
      other.attr.attributeId = link.attr.attributeId)) :
    written.seen other = records.seen other := by
  rw [seen, cells_write? h, seen]
  by_cases hg : other.record = link.record ∧ other.attr.groupId = link.attr.groupId
  · rw [if_pos hg, if_neg fun ha => hne ⟨hg.1, hg.2, ha⟩]
    cases records.cells other <;> rfl
  · rw [if_neg hg]

end Records

namespace Rule

variable {rule : Rule}

/-- A text that can be written is the value of the target. -/
theorem write_of_record (h : rule.record ≠ .none) (records : Records) (text : String) :
    ∃ written, rule.write records text = ({ passed := true }, written) ∧
      records.write? rule.link text = some written ∧ written.value rule.link = text := by
  have hmeant : records.write? rule.link text ≠ none :=
    fun hnone => h (Records.write?_eq_none_iff.mp hnone)
  obtain ⟨written, hwritten⟩ := Option.ne_none_iff_exists'.mp hmeant
  refine ⟨written, ?_, hwritten, ?_⟩
  · rw [write, hwritten]
  · rw [Records.value_write? hwritten, if_pos ⟨rfl, rfl, rfl⟩]

theorem write_of_none (h : rule.record = .none) (records : Records) (text : String) :
    rule.write records text = (rule.failed (.noRecord rule.target.name), records) := by
  have hnone : records.write? rule.link text = none := Records.write?_eq_none_iff.mpr h
  rw [write, hnone]

end Rule

end Rulebook
