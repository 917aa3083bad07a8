import Rulebook.Compiler
import Rulebook.Evaluation.Walk

/-!
# Stores of rule trees

A store keeps rule trees under names and the compiler that makes them. A document that is refused
changes nothing: not the trees, not the custom operators, not the count of trees made.
-/

namespace Rulebook

/-- Rule trees under names, with their compiler. -/
structure Store where
  /-- The trees with their names, each name at most once. -/
  trees : List (String × RuleTree) := []
  /-- What documents are compiled with. -/
  compiler : Compiler

/-- Counts of what a store holds. -/
structure StoreStatistics where
  /-- The number of trees. -/
  trees : Nat
  /-- The number of rule sets in all trees, the roots included. -/
  ruleSets : Nat
  /-- The number of rules in all trees. -/
  rules : Nat
  /-- The number of rules per tree, and zero without trees. -/
  rulesPerTree : Float
  deriving DecidableEq

namespace Store

/-- The number of trees. -/
def size (store : Store) : Nat := store.trees.length

/-- The tree under a name. -/
def find? (store : Store) (name : String) : Option RuleTree := store.trees.lookup name

/-- A tree is kept under the name. -/
def contains (store : Store) (name : String) : Bool := (store.find? name).isSome

/-- The names in ascending order. -/
def names (store : Store) : List String :=
  (store.trees.map Prod.fst).mergeSort fun left right => decide (left ≤ right)

/-- Registers a custom operator for the trees that are made from now on. -/
def register (store : Store) (name : String) (operation : Operation) : Except Refusal Store := do
  return { store with compiler := ← store.compiler.register name operation }

/-- Puts a tree under a name, in place of the tree that was there. -/
def bind (name : String) (tree : RuleTree) : List (String × RuleTree) → List (String × RuleTree)
  | [] => [(name, tree)]
  | entry :: more =>
    if entry.1 = name then (name, tree) :: more else entry :: bind name tree more

/-- Compiles a document and keeps the tree under a name. -/
def load (store : Store) (name markup : String) : Except Refusal (RuleTree × Store) := do
  let (tree, compiler) ← store.compiler.compile markup
  return (tree, { trees := bind name tree store.trees, compiler })

/-- Compiles a document and puts the tree in place of the one that has to be there. -/
def update (store : Store) (name markup : String) : Except Refusal (RuleTree × Store) :=
  if store.contains name then store.load name markup else .error (.treeNotFound name)

/-- Takes a tree away. -/
def delete (store : Store) (name : String) : Except Refusal Store :=
  if store.contains name then
    .ok { store with trees := store.trees.filter fun entry => entry.1 != name }
  else .error (.treeNotFound name)

/-- Compiles documents one after the other and keeps the trees under their names: the names of the
documents that were not refused, and the store. -/
def loadAll (store : Store) : List (String × String) → List String × Store
  | [] => ([], store)
  | (name, markup) :: more =>
    match store.load name markup with
    | .ok (_, store) =>
      let (names, store) := store.loadAll more
      (name :: names, store)
    | .error _ => store.loadAll more

/-- Takes all trees away. -/
def clear (store : Store) : Store := { store with trees := [] }

/-- Evaluates the tree under a name. -/
def evaluate (store : Store) (name : String) (evaluator : Evaluator) (records : Records) :
    Except Refusal Report × Records :=
  match store.find? name with
  | some tree => evaluator.evaluate tree records
  | none => (.error (.treeNotFound name), records)

/-- Counts what a store holds. -/
def statistics (store : Store) : StoreStatistics :=
  let rules := store.trees.foldl (fun count entry => count + entry.2.ruleCount) 0
  { trees := store.size
    ruleSets := store.trees.foldl (fun count entry => count + entry.2.setCount) 0
    rules
    rulesPerTree := if store.size = 0 then 0.0 else Float.ofNat rules / Float.ofNat store.size }

/-- After putting a tree under a name the name leads to it, and others as before. -/
theorem lookup_bind (name other : String) (tree : RuleTree) (trees : List (String × RuleTree)) :
    (bind name tree trees).lookup other =
      if other = name then some tree else trees.lookup other := by
  induction trees with
  | nil =>
    rw [bind, List.lookup_cons]
    by_cases h : other = name
    · simp [h]
    · rw [beq_false_of_ne h, if_neg h]
  | cons entry more ih =>
    obtain ⟨first, kept⟩ := entry
    simp only [bind]
    split
    · next same =>
      subst same
      rw [List.lookup_cons, List.lookup_cons]
      by_cases h : other = first
      · simp [h]
      · rw [beq_false_of_ne h, if_neg h]
    · next unlike =>
      rw [List.lookup_cons, List.lookup_cons, ih]
      by_cases h : other = first
      · subst h
        simp [unlike]
      · rw [beq_false_of_ne h]

end Store

end Rulebook
