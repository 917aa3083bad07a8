import Rulebook.RuleSet
import Rulebook.Table
import Rulebook.Operator.Registry

/-!
# Rule trees

A rule tree is a root rule set with an index: the paths to the rule sets in preorder, and for each
number of a rule set or rule the place of a path in that list. Looking up a number goes down the
tree again along the path. Where a number is used twice the later place counts. A tree keeps the
custom operators it was made with until it is bound to others.

A path names children by their places, so it may lead out of a tree. The paths of an index never do:
`map_at?_pathsFrom` says where they lead.
-/

namespace Rulebook

namespace RuleSet

/-- The rule set to which a path leads: each step is the place of a child. -/
def at? (set : RuleSet) : List Nat → Option RuleSet
  | [] => some set
  | place :: more => set.children[place]?.bind fun child => child.at? more

mutual
/-- The paths to the rule sets of a tree in preorder, where `path` leads to the root of the tree. -/
def pathsFrom (path : List Nat) : RuleSet → List (List Nat)
  | ⟨_, children⟩ => path :: pathsFromAll path 0 children

/-- The paths to the rule sets of a list of trees, where `path` leads to the rule set that has them
as children from `place` on. -/
def pathsFromAll (path : List Nat) (place : Nat) : List RuleSet → List (List Nat)
  | [] => []
  | child :: more => child.pathsFrom (path ++ [place]) ++ pathsFromAll path (place + 1) more
end

/-- The paths to the rule sets of a tree in preorder. -/
def paths (root : RuleSet) : List (List Nat) := root.pathsFrom []

/-- A path in two parts goes on where the first part leads. -/
theorem at?_append (set : RuleSet) (path more : List Nat) :
    set.at? (path ++ more) = (set.at? path).bind fun node => node.at? more := by
  induction path generalizing set with
  | nil => rfl
  | cons place rest ih =>
    simp only [List.cons_append, at?, Option.bind_assoc]
    exact congrArg _ (funext ih)

mutual
/-- The paths of a tree lead to its rule sets. -/
theorem map_at?_pathsFrom {root : RuleSet} : (set : RuleSet) → {path : List Nat} →
    root.at? path = some set → (set.pathsFrom path).map root.at? = set.preorder.map some
  | ⟨head, children⟩, path, h => by
    have hbelow : (pathsFromAll path 0 children).map root.at? =
        (preorderAll children).map some := map_at?_pathsFromAll children [] h
    rw [pathsFrom, preorder, List.map_cons, List.map_cons, h, hbelow]

/-- The paths of the children of a rule set lead to their rule sets. -/
theorem map_at?_pathsFromAll {root : RuleSet} {head : Head} : (sets front : List RuleSet) →
    {path : List Nat} → root.at? path = some ⟨head, front ++ sets⟩ →
    (pathsFromAll path front.length sets).map root.at? = (preorderAll sets).map some
  | [], _, _, _ => rfl
  | child :: more, front, path, h => by
    have hchild : root.at? (path ++ [front.length]) = some child := by
      rw [at?_append, h, Option.bind_some, at?, List.getElem?_append_right (Nat.le_refl _),
        Nat.sub_self]
      rfl
    have hrest : root.at? path = some ⟨head, (front ++ [child]) ++ more⟩ := by
      rw [List.append_assoc]
      exact h
    have hmore := map_at?_pathsFromAll more (front ++ [child]) hrest
    rw [List.length_append, List.length_singleton] at hmore
    rw [pathsFromAll, preorderAll, List.map_append, List.map_append,
      map_at?_pathsFrom child hchild, hmore]
end

/-- The paths lead to the rule sets in preorder, and none leads out of the tree. -/
theorem map_at?_paths (root : RuleSet) : root.paths.map root.at? = root.preorder.map some :=
  map_at?_pathsFrom root rfl

/-- Every path of the list leads to a rule set. -/
theorem isSome_at?_of_mem_paths {root : RuleSet} {path : List Nat} (h : path ∈ root.paths) :
    (root.at? path).isSome := by
  have hm : root.at? path ∈ root.preorder.map some :=
    root.map_at?_paths ▸ List.mem_map_of_mem h
  obtain ⟨set, -, hset⟩ := List.mem_map.mp hm
  rw [← hset]
  rfl

end RuleSet

/-- A tree of rule sets that is ready to be evaluated. -/
structure RuleTree where
  /-- The root. -/
  root : RuleSet
  /-- The paths from the root to the rule sets, in preorder. -/
  paths : Array (List Nat)
  /-- The place of the path to the rule set with a number. -/
  setPlaces : Table Nat
  /-- The place of the path to the rule set that holds the rule with a number. -/
  rulePlaces : Table Nat
  /-- The custom operators. -/
  registry : Registry
  /-- The number of the compilation that made the tree. -/
  version : UInt64

namespace RuleTree

/-- Enters the places of paths under the numbers of the rule sets to which they lead and under the
numbers of their rules; the first path has the place `place`. There is no index if a path leads out
of the tree. -/
def indexPaths? (root : RuleSet) (setPlaces rulePlaces : Table Nat) (place : Nat) :
    List (List Nat) → Option (Table Nat × Table Nat)
  | [] => some (setPlaces, rulePlaces)
  | path :: more =>
    (root.at? path).bind fun set =>
      indexPaths? root (setPlaces.insert set.id place)
        (set.head.rules.foldl (fun table rule => table.insert rule.id place) rulePlaces)
        (place + 1) more

/-- The places of the rule sets and of the rules of a tree. -/
def index? (root : RuleSet) : Option (Table Nat × Table Nat) :=
  indexPaths? root .empty .empty 0 root.paths

/-- Paths that lead to rule sets can be entered. -/
theorem isSome_indexPaths? {root : RuleSet} {paths : List (List Nat)}
    (h : ∀ path ∈ paths, (root.at? path).isSome) (setPlaces rulePlaces : Table Nat) (place : Nat) :
    (indexPaths? root setPlaces rulePlaces place paths).isSome := by
  induction paths generalizing setPlaces rulePlaces place with
  | nil => rfl
  | cons path more ih =>
    obtain ⟨hpath, hmore⟩ := List.forall_mem_cons.mp h
    obtain ⟨set, hset⟩ := Option.isSome_iff_exists.mp hpath
    rw [indexPaths?, hset, Option.bind_some]
    exact ih hmore _ _ _

/-- Every tree has an index. -/
theorem isSome_index? (root : RuleSet) : (index? root).isSome :=
  isSome_indexPaths? (fun _ hp => RuleSet.isSome_at?_of_mem_paths hp) _ _ _

/-- The tree with a root. -/
def ofRoot (root : RuleSet) (registry : Registry) (version : UInt64) : RuleTree where
  root := root
  paths := root.paths.toArray
  setPlaces := ((index? root).get (isSome_index? root)).1
  rulePlaces := ((index? root).get (isSome_index? root)).2
  registry := registry
  version := version

/-- The rule set to which the path at a place leads. -/
def node? (tree : RuleTree) (place : Nat) : Option RuleSet := tree.paths[place]?.bind tree.root.at?

/-- The rule sets in preorder. -/
def all (tree : RuleTree) : List RuleSet := tree.paths.toList.filterMap tree.root.at?

/-- The rule set with a number. -/
def find? (tree : RuleTree) (id : UInt32) : Option RuleSet :=
  (tree.setPlaces.find? id).bind tree.node?

/-- The rule with a number. -/
def findRule? (tree : RuleTree) (id : UInt32) : Option Rule := do
  let place ← tree.rulePlaces.find? id
  let set ← tree.node? place
  set.head.rules.find? fun rule => rule.id == id

/-- The number of rule sets. -/
def setCount (tree : RuleTree) : Nat := tree.paths.size

/-- The number of different numbers of rules. -/
def ruleCount (tree : RuleTree) : Nat := tree.rulePlaces.size

/-- The tree with other custom operators. -/
def rebind (tree : RuleTree) (registry : Registry) : RuleTree := { tree with registry }

/-- A tree lists the rule sets below its root in preorder. -/
theorem all_ofRoot (root : RuleSet) (registry : Registry) (version : UInt64) :
    (ofRoot root registry version).all = root.preorder := by
  have hpaths : (ofRoot root registry version).paths.toList = root.paths := List.toList_toArray
  have hsets : (root.paths.map root.at?).filterMap id = root.preorder := by
    rw [root.map_at?_paths, List.filterMap_map]
    exact List.filterMap_some
  rw [all, hpaths, ← hsets, List.filterMap_map]
  rfl

end RuleTree

end Rulebook
