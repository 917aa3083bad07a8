import Rulebook.Proofs.Compiler.WellFormed
import Rulebook.Proofs.Markup.Spelling

/-!
# Compiling elements without content

What a document is compiled to depends on the elements that are read from it alone. So an element
without content may be spelled in either way as long as it lies within the limit for nested
elements. Beyond the limit the spelling matters: a tag of its own is not tested against the limit,
and a start tag is refused.
-/

namespace Rulebook.Compiler

open Markup (Cut Element EmptyElement EmptyWithin IsTag PlacedToken SameBehind)
open Markup (readDocument tagName tagToken tokens unmarked)
open Text (byteSize)

variable {compiler : Compiler} {first second : String}

/-- A text with a bracket is compiled from the document that is read from it. -/
theorem compile_of_mem {text : String} (h : '<' ∈ text.toList) :
    compiler.compile text = readDocument compiler.maxDepth text >>= fun document => do
      if document.children.isEmpty then throw .emptyMarkup
      let root ← RuleSet.ofOutline compiler.reader (Outline.ofElements document.children)
      return (RuleTree.ofRoot root compiler.registry (compiler.version + 1),
        { compiler with version := compiler.version + 1 }) := by
  rw [compile, compileRoot, if_neg (Text.trimmed_ne_of_mem (by decide) h)]
  simp only [bind_assoc]
  refine bind_congr fun document => ?_
  split <;> rfl

/-- Texts that are read alike but for places are compiled alike but for places. -/
theorem same_compile {stop shift : Nat} (hf : '<' ∈ first.toList) (hs : '<' ∈ second.toList)
    (h : SameBehind stop shift (readDocument compiler.maxDepth first)
      (readDocument compiler.maxDepth second)) :
    SameBehind stop shift (compiler.compile first) (compiler.compile second) := by
  rw [compile_of_mem hf, compile_of_mem hs]
  exact h.bind fun document => .same _

/-- A text whose document is refused is refused. -/
theorem compile_of_readDocument_error {text : String} {refusal : Refusal} (ht : '<' ∈ text.toList)
    (h : readDocument compiler.maxDepth text = .error refusal) :
    compiler.compile text = .error refusal := by
  rw [compile_of_mem ht, h]
  rfl

section

variable (compiler) (element : EmptyElement)

theorem mem_closed : '<' ∈ element.closed.toList := by
  rw [EmptyElement.closed, String.toList_ofList]
  exact List.mem_append_right _ List.mem_cons_self

theorem mem_opened : '<' ∈ element.opened.toList := by
  rw [EmptyElement.opened, String.toList_ofList]
  exact List.mem_append_right _ List.mem_cons_self

/-- Within the limit an element without content may be spelled in either way. -/
theorem same_compile_element (h : element.depth ≤ compiler.maxDepth) :
    SameBehind element.stop element.shift (compiler.compile element.closed)
      (compiler.compile element.opened) :=
  same_compile (mem_closed element) (mem_opened element) (element.same_readDocument h)

/-- Beyond the limit an element without content is refused with a start tag, unless what stands in
front of it is refused already. -/
theorem compile_opened_tooDeep (h : compiler.maxDepth < element.depth) :
    compiler.compile element.opened = .error (.tooDeep compiler.maxDepth) ∨
      ∃ refusal, compiler.compile element.closed = .error refusal ∧
        compiler.compile element.opened = .error refusal := by
  rcases element.readDocument_opened_tooDeep h with hdeep | ⟨refusal, hclosed, hopened⟩
  · exact .inl (compile_of_readDocument_error (mem_opened element) hdeep)
  · exact .inr ⟨refusal, compile_of_readDocument_error (mem_closed element) hclosed,
      compile_of_readDocument_error (mem_opened element) hopened⟩

end

/-- What the spelling of elements without content changes. A document is nested at most one deeper
than the limit, and within it exactly if each tag of an element without content stands in fewer open
elements than the limit. Within the limit such an element may be spelled in either way: the result
is the same, but that faults behind it have later places. Beyond the limit the second spelling is
refused, for its depth or as the first one is for what stands in front of it. Each tag of an element
without content and each start tag with its end tag right behind it is such a spelling. -/
theorem compile_spelled (compiler : Compiler) :
    (∀ (text : String) (document : Element),
      readDocument compiler.maxDepth text = .ok document →
        Element.heightAll document.children ≤ compiler.maxDepth + 1 ∧
          (Element.heightAll document.children ≤ compiler.maxDepth ↔
            EmptyWithin compiler.maxDepth 0 (tokens text.toList))) ∧
    (∀ element : EmptyElement,
      (element.depth ≤ compiler.maxDepth →
        SameBehind element.stop element.shift (compiler.compile element.closed)
          (compiler.compile element.opened)) ∧
      (compiler.maxDepth < element.depth →
        compiler.compile element.opened = .error (.tooDeep compiler.maxDepth) ∨
          ∃ refusal, compiler.compile element.closed = .error refusal ∧
            compiler.compile element.opened = .error refusal)) ∧
    (∀ (text : String) (before after : List PlacedToken) (content : List Char) (place : Nat),
      tokens text.toList = before ++ ⟨.empty content, place⟩ :: after →
      tagToken content = .start content → IsTag ('/' :: tagName content) →
        ∃ element : EmptyElement, element.closed = text ∧ element.content = content ∧
          tokens element.front = before) ∧
    ∀ (text : String) (before after : List PlacedToken) (content : List Char) (place : Nat),
      tokens text.toList = before ++ ⟨.start content, place⟩ ::
        ⟨.stop (tagName content), place + byteSize (tagName content) + 3⟩ :: after →
      content ≠ [] →
        ∃ element : EmptyElement, element.opened = text ∧ element.content = content ∧
          tokens element.front = before :=
  ⟨fun _ _ h => Markup.heightAll_of_readDocument h,
    fun element => ⟨same_compile_element compiler element, compile_opened_tooDeep compiler element⟩,
    fun _ _ _ _ _ h hstart hnamed => EmptyElement.exists_closed h hstart hnamed,
    fun _ _ _ _ _ h hne => EmptyElement.exists_opened h hne⟩

/-- A branch without content in another one. -/
def branchInBranch : EmptyElement where
  front := ['<', 'i', 'f', '>']
  content := ['i', 'f']
  back := ['<', '/', 'i', 'f', '>']
  cut := @Cut.construct ['i', 'f'] [] _ (IsTag.ends (by decide) []) .nil
  ne_nil := by decide
  tag := by decide
  start := by decide
  named := by decide

/-- The branch with a tag of its own is compiled where only one element may be open. -/
theorem compile_closed_branch : ∃ tree next,
    (small 1).compile branchInBranch.closed = .ok (tree, next) ∧ tree.root.preorder.length = 3 :=
  exists_compile (fun tree => tree.root.preorder.length) 3 (by decide +kernel)

/-- A branch in another one may be spelled in either way where two elements may be open; where only
one may, it is compiled with a tag of its own and refused with a start tag. -/
theorem compile_spelled_branch :
    branchInBranch.closed = "<if><if/></if>" ∧ branchInBranch.opened = "<if><if></if></if>" ∧
      branchInBranch.depth = 2 ∧
      SameBehind 9 4 ((small 2).compile branchInBranch.closed)
        ((small 2).compile branchInBranch.opened) ∧
      (∃ tree next, (small 1).compile branchInBranch.closed = .ok (tree, next)) ∧
      (small 1).compile branchInBranch.opened = .error (.tooDeep 1) := by
  have hdepth : branchInBranch.depth = 2 := by decide +kernel
  obtain ⟨tree, next, hclosed, -⟩ := compile_closed_branch
  refine ⟨by decide +kernel, by decide +kernel, hdepth,
    ((compile_spelled (small 2)).2.1 branchInBranch).1 hdepth.le, ⟨tree, next, hclosed⟩, ?_⟩
  rcases ((compile_spelled (small 1)).2.1 branchInBranch).2 (by rw [hdepth]; decide) with
    hdeep | ⟨refusal, hrefused, -⟩
  · exact hdeep
  · rw [hclosed] at hrefused
    cases hrefused

/-- Documents that are read are not always nested within the limit, and what is compiled from the
first spelling of an element is not always compiled from the second one: a branch in another one is
refused for its start tag where one element may be open. -/
theorem not_compile_spelled_always :
    (¬ ∀ (maxDepth : Nat) (text : String) (document : Element),
      readDocument maxDepth text = .ok document →
        Element.heightAll document.children ≤ maxDepth) ∧
    ¬ ∀ (compiler : Compiler) (element : EmptyElement) (made : RuleTree × Compiler),
      compiler.compile element.closed = .ok made → compiler.compile element.opened = .ok made := by
  constructor
  · intro hall
    have hheight : (readDocument 1 "<if><if/></if>").toOption.map
        (fun document => Element.heightAll document.children) = some 2 := by decide +kernel
    cases hread : readDocument 1 "<if><if/></if>" with
    | error refusal =>
      rw [hread] at hheight
      cases hheight
    | ok document =>
      have hlimit := hall 1 _ document hread
      rw [hread] at hheight
      have hheight : Element.heightAll document.children = 2 := Option.some.inj hheight
      omega
  · intro hall
    obtain ⟨tree, next, hclosed, -⟩ := compile_closed_branch
    have hopened := hall (small 1) branchInBranch (tree, next) hclosed
    have hrefused : ((small 1).compile branchInBranch.opened).isOk = false := by decide +kernel
    rw [hopened] at hrefused
    cases hrefused

end Rulebook.Compiler
