import Rulebook.Proofs.Json.Depth
import Rulebook.Proofs.Markup.Reading

/-!
# Which limits for nested elements are safe

The description of every compiled tree is read back from its text when elements may be nested 61
deep, and from 62 on it need not be: branches inside each other are compiled as deep as the limit
allows, and each of them takes two of the arrays and objects that the reader keeps.
-/

namespace Rulebook

open Markup (Element OpenElement OpenElements Event IsName)
open Markup.OpenElements (readFrom)

/-- An empty branch inside as many branches. -/
def nestedChars : Nat → List Char
  | 0 => "<if/>".toList
  | count + 1 => "<if>".toList ++ (nestedChars count ++ "</if>".toList)

/-- The markup of an empty branch inside as many branches. -/
def nestedMarkup (count : Nat) : String := String.ofList (nestedChars count)

/-- The element of an empty branch inside as many branches. -/
def nestedElement : Nat → Element
  | 0 => { name := "if" }
  | count + 1 => { name := "if", children := [nestedElement count] }

/-- Branches are read where the limit allows all but the innermost one. -/
theorem readFrom_nested {maxDepth : Nat} (count : Nat) (inner : OpenElement)
    (outer : List OpenElement) (place : Nat) (rest : List Char)
    (h : outer.length + count ≤ maxDepth) :
    ∃ after, readFrom maxDepth ⟨inner, outer⟩ place (nestedChars count ++ rest) =
      readFrom maxDepth (OpenElements.addChild ⟨inner, outer⟩ (nestedElement count)) after
        rest := by
  have hname : IsName "if" := by decide
  have hkeys : ∀ entry ∈ ([] : List (String × String)), IsName entry.1 := fun _ he =>
    absurd he List.not_mem_nil
  induction count generalizing inner outer place rest with
  | zero =>
    exact OpenElements.readFrom_empty hname hkeys .nil maxDepth ⟨inner, outer⟩ place rest
  | succ count ih =>
    have hroom : ¬ maxDepth < outer.length + 1 := by omega
    obtain ⟨after, hstart⟩ := OpenElements.readFrom_start hname hkeys .nil maxDepth
      ⟨inner, outer⟩ place (nestedChars count ++ ("</if>".toList ++ rest))
    obtain ⟨after', hinside⟩ := ih { name := "if".toList } (inner :: outer) after
      ("</if>".toList ++ rest) (by rw [List.length_cons]; omega)
    obtain ⟨last, hstop⟩ := OpenElements.readFrom_stop hname maxDepth
      { name := "if".toList, children := [nestedElement count] } rfl inner outer after' rest
    refine ⟨last, ?_⟩
    rw [nestedChars, List.append_assoc, List.append_assoc]
    refine hstart.trans ?_
    rw [OpenElements.depth, if_neg hroom]
    exact hinside.trans hstop

/-- The document with the branches. -/
theorem readDocument_nested {maxDepth count : Nat} (h : count ≤ maxDepth) :
    ∃ document, Markup.readDocument maxDepth (nestedMarkup count) = .ok document ∧
      document.children = [nestedElement count] := by
  have hfirst : ∃ rest, (nestedMarkup count).toList = '<' :: rest := by
    rw [nestedMarkup, String.toList_ofList]
    cases count with
    | zero => exact ⟨_, rfl⟩
    | succ count => exact ⟨_, rfl⟩
  obtain ⟨rest, hfirst⟩ := hfirst
  have hroom : ([] : List OpenElement).length + count ≤ maxDepth := by
    rwa [List.length_nil, Nat.zero_add]
  obtain ⟨after, hread⟩ := readFrom_nested count OpenElements.document.inner [] 0 [] hroom
  rw [List.append_nil, OpenElements.readFrom_nil] at hread
  refine ⟨⟨"#document", [], "", [nestedElement count]⟩, ?_, rfl⟩
  rw [Markup.readDocument_eq_readFrom maxDepth hfirst, nestedMarkup, String.toList_ofList]
  exact congrArg (· >>= OpenElements.finish) hread

namespace RuleSet

/-- The next branch of a rule set before anything is added to it. -/
def emptyBranch (set : RuleSet) (numbering : Numbering) : RuleSet where
  head :=
    { id := UInt32.ofNat numbering.nextSet, parent := some set.id, kind := .flow,
      description := "" }

/-- A branch is added when what it holds can be added to the empty branch. -/
theorem addItems_branch {reader : RuleReader} {set child : RuleSet} {numbering after : Numbering}
    {items : List OutlineItem}
    (h : addItems reader (emptyBranch set numbering)
      { numbering with nextSet := numbering.nextSet + 1 } items = .ok (child, after)) :
    addItems reader set numbering [.node .flow "" none items] =
      .ok ({ set with children := set.children ++ [child] }, after) := by
  rw [emptyBranch] at h
  rw [addItems, addItem, h]
  exact addItems_nil reader { set with children := set.children ++ [child] } after

/-- The element of a branch says that there is a branch. -/
theorem ofElements_branch (children : List Element) :
    Outline.ofElements [{ name := "if", children }] =
      [.node .flow "" none (Outline.ofElements children)] := by
  have htag : Element.hasTag { name := "if", children } NodeKind.flow.tag = true := by
    have halike : Text.alike "if" NodeKind.flow.tag = true := by decide
    exact halike
  rw [Outline.ofElements, Outline.ofElement, if_pos htag]
  rfl

/-- Branches inside each other are added, and each of them is two deeper. -/
theorem addItems_nested (reader : RuleReader) (count : Nat) (set : RuleSet)
    (numbering : Numbering) :
    ∃ next after, addItems reader set numbering (Outline.ofElements [nestedElement count]) =
      .ok (next, after) ∧ 2 * count + 4 ≤ next.height := by
  have hheight (set child : RuleSet) :
      child.height + 2 ≤ height { set with children := set.children ++ [child] } :=
    height_child_le (List.mem_append_right _ List.mem_cons_self)
  induction count generalizing set numbering with
  | zero =>
    rw [nestedElement, ofElements_branch]
    refine ⟨_, _, addItems_branch (addItems_nil _ _ _), ?_⟩
    exact Nat.le_trans (Nat.add_le_add_right (two_le_height _) 2) (hheight set _)
  | succ count ih =>
    obtain ⟨child, after, hadd, hchild⟩ := ih (emptyBranch set numbering)
      { numbering with nextSet := numbering.nextSet + 1 }
    rw [nestedElement, ofElements_branch]
    refine ⟨_, _, addItems_branch hadd, ?_⟩
    have hset := hheight set child
    omega

end RuleSet

namespace Compiler

variable {compiler next : Compiler} {markup : String} {tree : RuleTree}

/-- Branches inside each other are compiled where the limit allows all but the innermost one. -/
theorem compile_nested {count : Nat} (h : count ≤ compiler.maxDepth) :
    ∃ tree next, compiler.compile (nestedMarkup count) = .ok (tree, next) ∧
      2 * count + 5 ≤ tree.describe.toJson.height := by
  obtain ⟨document, hread, hchildren⟩ := readDocument_nested h
  obtain ⟨root, after, hadd, hheight⟩ :=
    RuleSet.addItems_nested compiler.reader count RuleSet.root {}
  have hroot : compiler.compileRoot (nestedMarkup count) = .ok root := by
    rw [compileRoot_of_readDocument hread, hchildren, RuleSet.ofOutline, hadd]
    rfl
  refine ⟨_, _, compile_of_compileRoot hroot, ?_⟩
  rw [RuleTree.height_describe]
  exact Nat.add_le_add_right hheight 1

/-- Where elements may be nested 62 deep, a description is refused by the reader. -/
theorem ofText?_nested (h : 62 ≤ compiler.maxDepth) :
    ∃ tree next, compiler.compile (nestedMarkup 62) = .ok (tree, next) ∧
      TreeDescription.ofText? tree.describe.jsonText = none := by
  obtain ⟨tree, next, hc, hheight⟩ := compile_nested h
  refine ⟨tree, next, hc, ?_⟩
  rw [TreeDescription.ofText?_jsonText, if_neg]
  rw [Json.maxOpen]
  omega

/-- The text of the description of a compiled tree is read back as the description, unless more
arrays and objects lie inside each other than the reader keeps; then it is refused. No more of them
do than the limit for nested elements tells. -/
theorem ofText?_of_compile (h : compiler.compile markup = .ok (tree, next)) :
    TreeDescription.ofText? tree.describe.jsonText =
        (if tree.describe.toJson.height ≤ Json.maxOpen then some tree.describe else none) ∧
      tree.describe.toJson.height ≤ 2 * compiler.maxDepth + 5 :=
  ⟨tree.describe.ofText?_jsonText, height_le_of_compile h⟩

/-- The description of a small tree is read back. -/
theorem ofText?_of_compile_small : ∃ tree next,
    (small 3).compile smallMarkup = .ok (tree, next) ∧ tree.describe.toJson.height = 7 ∧
      TreeDescription.ofText? tree.describe.jsonText = some tree.describe := by
  obtain ⟨tree, next, hc, hheight⟩ : ∃ tree next,
      (small 3).compile smallMarkup = .ok (tree, next) ∧ tree.describe.toJson.height = 7 :=
    exists_compile (fun tree => tree.describe.toJson.height) 7 (by decide +kernel)
  have hread := (ofText?_of_compile hc).1
  rw [hheight, if_pos (by decide)] at hread
  exact ⟨tree, next, hc, hheight, hread⟩

/-- The limit of 64 that compilers have by default is not safe: the description of an empty branch
inside 62 others is not read back. -/
theorem not_ofText?_always : ¬ ∀ (catalog : Catalog) (markup : String) (tree : RuleTree)
    (next : Compiler), (ofCatalog catalog).compile markup = .ok (tree, next) →
      TreeDescription.ofText? tree.describe.jsonText = some tree.describe := by
  intro hall
  obtain ⟨tree, next, hc, hrefused⟩ : ∃ tree next,
      (ofCatalog .empty).compile (nestedMarkup 62) = .ok (tree, next) ∧
        TreeDescription.ofText? tree.describe.jsonText = none :=
    ofText?_nested (by decide)
  rw [hall .empty (nestedMarkup 62) tree next hc] at hrefused
  cases hrefused

/-- Limits for nested elements are safe up to 61, and no further. -/
theorem ofText?_always_iff (compiler : Compiler) :
    (∀ markup tree next, compiler.compile markup = .ok (tree, next) →
      TreeDescription.ofText? tree.describe.jsonText = some tree.describe) ↔
    compiler.maxDepth ≤ 61 := by
  constructor
  · intro hall
    by_contra hlarge
    have hroom : 62 ≤ compiler.maxDepth := by omega
    obtain ⟨tree, next, hc, hrefused⟩ := ofText?_nested hroom
    rw [hall _ tree next hc] at hrefused
    cases hrefused
  · intro hsmall markup tree next hc
    have hheight := height_le_of_compile hc
    rw [TreeDescription.ofText?_jsonText, if_pos]
    rw [Json.maxOpen]
    omega

end Compiler

end Rulebook
