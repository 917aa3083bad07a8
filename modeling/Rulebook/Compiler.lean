import Rulebook.Outline
import Rulebook.RuleTree
import Rulebook.Expression.Reading

/-!
# Compiling documents to rule trees

Rule sets are numbered from two and rules from one, both in the order of the document, by counts of
32 bits. A rule that cannot be read stops the compilation. Each tree that is made has a version one
above the one before and keeps the custom operators as they are then.
-/

namespace Rulebook

/-- The numbers that are given next. -/
structure Numbering where
  /-- The number of the next rule set. -/
  nextSet : Nat := 2
  /-- The number of the next rule. -/
  nextRule : Nat := 1
  deriving DecidableEq, Repr

namespace RuleSet

/-- Adds the rule with a label and a text to a rule set. -/
def Head.readRule (reader : RuleReader) (head : Head) (numbering : Numbering)
    (label : Option String) (text : String) : Except Refusal (Head × Numbering) := do
  if text = "" then throw (.expression "" .emptyText)
  let rule ← reader.read text (UInt32.ofNat numbering.nextRule) label
  return (head.addRule rule, { numbering with nextRule := numbering.nextRule + 1 })

mutual
/-- Adds what one item of an outline says to a rule set. Messages and names of failures count in
rule sets that check something. -/
def addItem (reader : RuleReader) (set : RuleSet) (numbering : Numbering) :
    OutlineItem → Except Refusal (RuleSet × Numbering)
  | .rule label text => do
    let (head, numbering) ← set.head.readRule reader numbering label text
    return ({ set with head }, numbering)
  | .join combinator => return ({ set with head := { set.head with combinator } }, numbering)
  | .failureMessage text =>
    if set.head.isValidate then
      return ({ set with head := { set.head with failureMessage := some text } }, numbering)
    else return (set, numbering)
  | .customId text =>
    if set.head.isValidate then
      return ({ set with head := { set.head with customId := some text } }, numbering)
    else return (set, numbering)
  | .node kind description severity items => do
    let head : Head :=
      { id := UInt32.ofNat numbering.nextSet, parent := some set.id, kind, description, severity }
    let (child, numbering) ←
      addItems reader { head } { numbering with nextSet := numbering.nextSet + 1 } items
    return ({ set with children := set.children ++ [child] }, numbering)

/-- Adds what an outline says to a rule set. -/
def addItems (reader : RuleReader) (set : RuleSet) (numbering : Numbering) :
    List OutlineItem → Except Refusal (RuleSet × Numbering)
  | [] => return (set, numbering)
  | item :: more => do
    let (set, numbering) ← addItem reader set numbering item
    addItems reader set numbering more
end

/-- The root of the tree that an outline describes. -/
def ofOutline (reader : RuleReader) (items : List OutlineItem) : Except Refusal RuleSet := do
  return (← addItems reader root {} items).1

end RuleSet

/-- What documents are compiled with. -/
structure Compiler where
  /-- How rules are read, with the custom operators registered so far. -/
  reader : RuleReader
  /-- The limit for nested elements. -/
  maxDepth : Nat := 64
  /-- The number of trees made so far. -/
  version : UInt64 := 0

namespace Compiler

/-- The compiler for a catalog with all else as it is by default. -/
def ofCatalog (catalog : Catalog) : Compiler := { reader := { catalog } }

/-- The custom operators registered so far. -/
def registry (compiler : Compiler) : Registry := compiler.reader.registry

/-- Registers a custom operator for the trees that are made from now on. -/
def register (compiler : Compiler) (name : String) (operation : Operation) :
    Except Refusal Compiler := do
  let registry ← compiler.registry.register name operation
  return { compiler with reader := { compiler.reader with registry } }

/-- The root of the tree that a document describes. -/
def compileRoot (compiler : Compiler) (markup : String) : Except Refusal RuleSet := do
  if Text.trimmed markup = "" then throw .emptyMarkup
  let document ← Markup.readDocument compiler.maxDepth markup
  if document.children.isEmpty then throw .emptyMarkup
  RuleSet.ofOutline compiler.reader (Outline.ofElements document.children)

/-- Makes the tree that a document describes; the compiler counts it. -/
def compile (compiler : Compiler) (markup : String) : Except Refusal (RuleTree × Compiler) := do
  let root ← compiler.compileRoot markup
  let version := compiler.version + 1
  return (RuleTree.ofRoot root compiler.registry version, { compiler with version })

end Compiler

end Rulebook
