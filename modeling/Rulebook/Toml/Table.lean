import Rulebook.Settings.Value

/-!
# Tables of TOML while they are read

A table is opened by a header, by the dotted key of an entry, or in passing by a longer header. Only
a table that was made in passing may be opened by a header later, and only a table that dotted keys
made takes further entries by dotted keys. Values, also tables and arrays written in braces and
brackets, are closed. An array of tables takes entries in its last table.
-/

namespace Rulebook.Toml

/-- How a table was made. -/
inductive Origin where
  /-- By a header of its own. -/
  | header
  /-- In passing, by a longer header. -/
  | passing
  /-- By a dotted key. -/
  | dotted
  deriving DecidableEq, Repr

/-- What a name stands for in a table. -/
inductive Node where
  /-- A closed value. -/
  | value (setting : Setting)
  /-- A table. -/
  | table (origin : Origin) (entries : List (String × Node))
  /-- An array of tables: the last one and those before it, in reverse. -/
  | tables (last : List (String × Node)) (before : List (List (String × Node)))

/-- The entries of a table. -/
abbrev Entries := List (String × Node)

namespace Node

mutual
/-- The value that a name stands for. -/
def toSetting : Node → Setting
  | .value setting => setting
  | .table _ entries => .table (entriesToSettings entries)
  | .tables last before =>
    .list ((.table (entriesToSettings last) :: tablesToSettings before).reverse)

/-- The values of entries. -/
def entriesToSettings : List (String × Node) → List (String × Setting)
  | [] => []
  | (name, node) :: more => (name, node.toSetting) :: entriesToSettings more

/-- The values of tables. -/
def tablesToSettings : List (List (String × Node)) → List Setting
  | [] => []
  | entries :: more => .table (entriesToSettings entries) :: tablesToSettings more
end

end Node

/-- Puts a node in place of the one under a name, or at the end if there is none. -/
def put (name : String) (node : Node) : Entries → Entries
  | [] => [(name, node)]
  | entry :: more => if entry.1 = name then (name, node) :: more else entry :: put name node more

/-- Adds an entry under a dotted key. -/
def assign? (value : Setting) : (key : List String) → Entries → Option Entries
  | [], _ => none
  | [name], entries =>
    if (entries.lookup name).isSome then none else some (entries ++ [(name, .value value)])
  | name :: more, entries =>
    let isLast := more.length == 1
    match entries.lookup name with
    | none => (assign? value more []).map fun inner => entries ++ [(name, .table .dotted inner)]
    | some (.table origin inner) =>
      if origin = .header ∨ (isLast ∧ origin ≠ .dotted) then none
      else (assign? value more inner).map fun inner => put name (.table origin inner) entries
    | some (.tables last before) =>
      if isLast then none
      else (assign? value more last).map fun last => put name (.tables last before) entries
    | some (.value _) => none

/-- Changes the entries of the table that a header leads to; tables on the way are made in
passing. -/
def within? (change : Entries → Option Entries) : (header : List String) → Entries → Option Entries
  | [], entries => change entries
  | name :: more, entries =>
    match entries.lookup name with
    | none => (within? change more []).map fun inner => entries ++ [(name, .table .passing inner)]
    | some (.table origin inner) =>
      (within? change more inner).map fun inner => put name (.table origin inner) entries
    | some (.tables last before) =>
      (within? change more last).map fun last => put name (.tables last before) entries
    | some (.value _) => none

/-- Opens the table with a name. -/
def openTable? (name : String) (entries : Entries) : Option Entries :=
  match entries.lookup name with
  | none => some (entries ++ [(name, .table .header [])])
  | some (.table .passing inner) => some (put name (.table .header inner) entries)
  | _ => none

/-- Opens a further table in the array of tables with a name. -/
def openFurther? (name : String) (entries : Entries) : Option Entries :=
  match entries.lookup name with
  | none => some (entries ++ [(name, .tables [] [])])
  | some (.tables last before) => some (put name (.tables [] (last :: before)) entries)
  | _ => none

end Rulebook.Toml
