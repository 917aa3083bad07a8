/-!
# Values of settings

Settings come as tables of scalars, lists and further tables. Where two sources give a table for the
same name the tables are merged entry by entry; otherwise the later source counts.
-/

namespace Rulebook

/-- A value that a source of settings gives. -/
inductive Setting where
  /-- No value, in a place that a list has to have. -/
  | missing
  /-- A truth value. -/
  | bool (value : Bool)
  /-- A whole number. -/
  | whole (value : Int)
  /-- Another number. -/
  | number (value : Float)
  /-- A text. -/
  | text (value : String)
  /-- A list. -/
  | list (items : List Setting)
  /-- A table. -/
  | table (entries : List (String × Setting))
  deriving Inhabited

namespace Setting

/-- The entries of a table; other values have none. -/
def entries : Setting → List (String × Setting)
  | .table entries => entries
  | _ => []

/-- The items of a list; other values have none. -/
def items : Setting → List Setting
  | .list items => items
  | _ => []

/-- Changes the value under a name; a name that is not there gets a value at the end. -/
def update (name : String) (change : Setting → Setting) :
    List (String × Setting) → List (String × Setting)
  | [] => [(name, change .missing)]
  | entry :: more =>
    if entry.1 = name then (name, change entry.2) :: more else entry :: update name change more

mutual
/-- Lays a value over an older one. -/
def overlay (old : Setting) : Setting → Setting
  | .table entries => .table (overlayAll old.entries entries)
  | value => value

/-- Lays entries over older ones. -/
def overlayAll (old : List (String × Setting)) :
    List (String × Setting) → List (String × Setting)
  | [] => old
  | (name, value) :: more =>
    overlayAll (update name (fun kept => overlay kept value) old) more
end

/-- A step on the way to a value. -/
inductive Step where
  /-- To the entry with a name. -/
  | key (name : String)
  /-- To the item at a place, which is counted from the end if it is negative. -/
  | place (index : Int)
  deriving DecidableEq, Repr

/-- Changes the item at a place. A list that is too short is filled up, at the front if the place is
counted from the end. -/
def updateAt (index : Int) (change : Setting → Setting) (items : List Setting) : List Setting :=
  if 0 ≤ index then
    let filled := items ++ List.replicate (index.toNat + 1 - items.length) .missing
    filled.modify index.toNat change
  else
    let filled := List.replicate ((-index).toNat - items.length) .missing ++ items
    filled.modify (filled.length - (-index).toNat) change

/-- Lays a value over the older one at the end of a way; what stands in the way makes room. -/
def assign (value : Setting) : (way : List Step) → (old : Setting) → Setting
  | [], old => overlay old value
  | .key name :: more, old => .table (update name (assign value more) old.entries)
  | .place index :: more, old => .list (updateAt index (assign value more) old.items)

end Setting

end Rulebook
