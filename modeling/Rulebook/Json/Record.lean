import Rulebook.Json.Reader
import Rulebook.Json.Shape
import Rulebook.Record

/-!
# Records and catalogs in JSON

A record is an object that maps the numbers of groups to arrays of rows, and a row is an object that
maps the numbers of attributes to texts. Numbers are spelled as names without a sign and without a
leading zero; of members with the same number the last one counts. A catalog is an array of
attributes.
-/

namespace Rulebook

namespace Json

/-- The number that is spelled as the name of a member. -/
def key? (spelling : String) : Option UInt32 := (Json.number spelling).uint32?

/-- A table from the members of an object, whose values are read in the same way. -/
def table? {α : Type} (read : Json → Option α) : Json → Option (Table α)
  | .object members => do
    return Table.ofList (← members.mapM fun (spelling, value) => do
      return (← key? spelling, ← read value))
  | _ => none

/-- The object of a table, whose values are written in the same way. -/
def ofTable {α : Type} (write : α → Json) (table : Table α) : Json :=
  .object (table.entries.map fun entry => (toString entry.1.toNat, write entry.2))

end Json

/-- Reads a row. -/
def Row.ofJson? (json : Json) : Option Row := json.table? Json.text?

/-- Writes a row. -/
def Row.toJson (row : Row) : Json := Json.ofTable Json.ofString row

/-- Reads a record. -/
def Record.ofJson? (json : Json) : Option Record :=
  (json.table? (Json.list? Row.ofJson?)).map Record.mk

/-- Writes a record. -/
def Record.toJson (record : Record) : Json :=
  Json.ofTable (fun rows => .array (rows.map Row.toJson)) record.groups

/-- Reads a record from a text. -/
def Record.ofText? (text : String) : Option Record := (Json.read? text).bind Record.ofJson?

/-- Reads an attribute. -/
def Attribute.ofJson? (json : Json) : Option Attribute := do
  match ← json.fields? ["attribute_id", "group_id", "name"] with
  | [attributeId, groupId, name] =>
    return ⟨← Json.required Json.uint32? attributeId, ← Json.required Json.uint32? groupId,
      ← Json.required Json.text? name⟩
  | _ => none

/-- Writes an attribute. -/
def Attribute.toJson (attr : Attribute) : Json :=
  .object [Json.member "attribute_id" (Json.ofNat attr.attributeId.toNat),
    Json.member "group_id" (Json.ofNat attr.groupId.toNat),
    Json.member "name" (Json.ofString attr.name)]

/-- Reads a catalog. -/
def Catalog.ofJson? (json : Json) : Option Catalog :=
  (json.list? Attribute.ofJson?).map Catalog.ofList

/-- Reads a catalog from a text. -/
def Catalog.ofText? (text : String) : Option Catalog := (Json.read? text).bind Catalog.ofJson?

end Rulebook
