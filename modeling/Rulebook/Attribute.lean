/-!
# Attributes and their catalog

An attribute is a named column of a group of rows. Rules name attributes; a catalog knows what the
names stand for. Entries are looked up by name and by number, and a later entry hides an earlier one
of the same name or of the same number, each for itself: an attribute that gets a new number is
still found under its old one.
-/

namespace Rulebook

/-- A named column of a group. -/
structure Attribute where
  /-- The number of the column in the rows of its group. -/
  attributeId : UInt32
  /-- The number of the group. -/
  groupId : UInt32
  /-- The name that rules use. -/
  name : String
  deriving DecidableEq, Repr

/-- The attributes that rules may name. -/
structure Catalog where
  /-- Every entry that was ever made, the latest first. -/
  entries : List Attribute := []
  deriving DecidableEq, Repr

namespace Catalog

/-- The catalog without entries. -/
def empty : Catalog := {}

/-- Makes an entry. -/
def insert (catalog : Catalog) (attr : Attribute) : Catalog :=
  ⟨attr :: catalog.entries⟩

/-- The catalog of a list of attributes, entered in order. -/
def ofList (attributes : List Attribute) : Catalog := attributes.foldl insert empty

/-- The attribute with a name. -/
def byName? (catalog : Catalog) (name : String) : Option Attribute :=
  catalog.entries.find? fun attr => attr.name == name

/-- The attribute with a number. -/
def byId? (catalog : Catalog) (attributeId : UInt32) : Option Attribute :=
  catalog.entries.find? fun attr => attr.attributeId == attributeId

/-- A name stands for an attribute. -/
def knows (catalog : Catalog) (name : String) : Bool := (catalog.byName? name).isSome

/-- The number of names. -/
def size (catalog : Catalog) : Nat := (catalog.entries.map Attribute.name).eraseDups.length

/-- The attribute found under a name has this name. -/
theorem name_of_byName? {catalog : Catalog} {name : String} {attr : Attribute}
    (h : catalog.byName? name = some attr) : attr.name = name := by
  have := List.find?_some h
  simpa using this

/-- After an entry its name stands for it, and other names for what they stood for before. -/
theorem byName?_insert (catalog : Catalog) (attr : Attribute) (name : String) :
    (catalog.insert attr).byName? name =
      if attr.name = name then some attr else catalog.byName? name := by
  unfold insert byName?
  rw [List.find?_cons]
  by_cases h : attr.name = name
  · simp [h]
  · rw [beq_false_of_ne h, if_neg h]

/-- After an entry its number stands for it, and other numbers for what they stood for before. -/
theorem byId?_insert (catalog : Catalog) (attr : Attribute) (attributeId : UInt32) :
    (catalog.insert attr).byId? attributeId =
      if attr.attributeId = attributeId then some attr else catalog.byId? attributeId := by
  unfold insert byId?
  rw [List.find?_cons]
  by_cases h : attr.attributeId = attributeId
  · simp [h]
  · rw [beq_false_of_ne h, if_neg h]

end Catalog

end Rulebook
