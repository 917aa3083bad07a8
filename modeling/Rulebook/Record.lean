import Rulebook.Table
import Rulebook.Attribute

/-!
# Records

A record holds groups of rows, and a row holds texts under the numbers of attributes. Rules read an
attribute in three ways: its value in the first row, its values in all rows that have it, and its
column with one text per row. They write the value in the first row and nothing else.
-/

namespace Rulebook

/-- Texts under the numbers of attributes. -/
abbrev Row := Table String

/-- The rows of a group, in order. -/
abbrev Group := List Row

/-- Groups of rows under the numbers of groups. -/
structure Record where
  /-- The groups that were made, also those without rows. -/
  groups : Table Group := Table.empty
  deriving DecidableEq

namespace Record

/-- The record without groups. -/
def empty : Record := {}

instance : Inhabited Record := ⟨empty⟩

/-- The rows of a group, if the group was made. -/
def group? (record : Record) (groupId : UInt32) : Option Group := record.groups.find? groupId

/-- The rows of a group; a group that was not made has none. -/
def rows (record : Record) (groupId : UInt32) : Group := (record.group? groupId).getD []

/-- The text of an attribute in the first row of its group. -/
def value? (record : Record) (attr : Attribute) : Option String :=
  (record.rows attr.groupId).head?.bind fun row => row.find? attr.attributeId

/-- The texts of an attribute in the rows that have it. -/
def values (record : Record) (attr : Attribute) : List String :=
  (record.rows attr.groupId).filterMap fun row => row.find? attr.attributeId

/-- The texts of an attribute in all rows, empty in a row that does not have it. -/
def column (record : Record) (attr : Attribute) : List String :=
  (record.rows attr.groupId).map fun row => (row.find? attr.attributeId).getD ""

/-- Puts a text into the first row, which is made if the group has none. -/
def setFirst (rows : Group) (attributeId : UInt32) (text : String) : Group :=
  match rows with
  | [] => [Table.empty.insert attributeId text]
  | first :: more => first.insert attributeId text :: more

/-- Writes the text of an attribute in the first row of its group. -/
def setValue (record : Record) (attr : Attribute) (text : String) : Record :=
  ⟨record.groups.insert attr.groupId
    (setFirst (record.rows attr.groupId) attr.attributeId text)⟩

/-- Appends a row to a group, which is made if there is none. -/
def pushRow (record : Record) (groupId : UInt32) (row : Row) : Record :=
  ⟨record.groups.insert groupId (record.rows groupId ++ [row])⟩

/-- The rows of a group after writing. -/
theorem rows_setValue (record : Record) (attr : Attribute) (text : String)
    (groupId : UInt32) :
    (record.setValue attr text).rows groupId =
      if groupId = attr.groupId then
        setFirst (record.rows groupId) attr.attributeId text
      else record.rows groupId := by
  simp only [rows, group?, setValue, Table.find?_insert]
  by_cases h : groupId = attr.groupId
  · simp [h]
  · simp [h]

/-- What was written is read. -/
theorem value?_setValue (record : Record) (attr : Attribute) (text : String) :
    (record.setValue attr text).value? attr = some text := by
  simp only [value?, rows_setValue, if_true]
  unfold setFirst
  split <;> simp

end Record

end Rulebook
