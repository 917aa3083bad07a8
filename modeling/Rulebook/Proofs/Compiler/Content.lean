import Rulebook.Proofs.Compiler.Spelling
import Rulebook.Proofs.Markup.Content

/-!
# Compiling spelled contents

What a document is compiled to does not depend on how the content of an element is spelled: as text
with references, as sections of character data, cut into pieces anywhere and with comments between
them. Only a fault of the document behind the content tells the spellings apart, because it is
reported with the number of bytes in front of it.
-/

namespace Rulebook.Compiler

open Markup (Cut Enclosure IsTag Piece PlacedToken SameFrom Spelling tagToken tokens)

section

variable (compiler : Compiler) (enclosure : Enclosure) {content : List Char}

theorem mem_text (chars : List Char) : '<' ∈ (enclosure.text chars).toList := by
  rw [Enclosure.text, String.toList_ofList]
  exact List.mem_append_right _ List.mem_cons_self

/-- Two spellings of a content are compiled alike but for places; the first one is not longer. -/
theorem same_compile_text (h : ¬ [']', ']', '>'] <:+: content) {first second : Spelling content}
    (hle : enclosure.stop first ≤ enclosure.stop second) :
    SameFrom (enclosure.stop first) (enclosure.stop second)
      (compiler.compile (enclosure.text first.chars))
      (compiler.compile (enclosure.text second.chars)) := by
  have hread := enclosure.same_readDocument compiler.maxDepth h hle
  have hcompile := (same_compile (mem_text enclosure _) (mem_text enclosure _) hread).sameFrom
  rw [Nat.add_sub_cancel' hle] at hcompile
  exact hcompile

end

/-- However the content of an element is cut into pieces and spelled, the document is compiled to
the same tree or refused alike; only a fault behind the content, which is the same at the same
distance, has the place that it has in the text. Each start tag of a document with a content and an
end tag behind it begins such an element. -/
theorem compile_content (compiler : Compiler) {content : List Char}
    (hcontent : ¬ [']', ']', '>'] <:+: content) :
    (∀ (enclosure : Enclosure) (first second : Spelling content),
      SameFrom (enclosure.stop first) (enclosure.stop second)
          (compiler.compile (enclosure.text first.chars))
          (compiler.compile (enclosure.text second.chars)) ∧
        ∀ made, compiler.compile (enclosure.text first.chars) = .ok made ↔
          compiler.compile (enclosure.text second.chars) = .ok made) ∧
    ∀ (text : String) (before after : List PlacedToken) (tag : List Char) (place : Nat),
      tokens text.toList = before ++ ⟨.start tag, place⟩ :: after →
        ∃ front rest, text.toList = front ++ '<' :: (tag ++ '>' :: rest) ∧
          tokens front = before ∧
          ∀ (spelling : Spelling content) (back : List Char),
            rest = spelling.chars ++ '<' :: '/' :: back →
              ∃ enclosure : Enclosure, enclosure.front = front ∧ enclosure.tag = tag ∧
                enclosure.back = back ∧ enclosure.text spelling.chars = text := by
  constructor
  · intro enclosure first second
    have hsame : SameFrom (enclosure.stop first) (enclosure.stop second)
        (compiler.compile (enclosure.text first.chars))
        (compiler.compile (enclosure.text second.chars)) := by
      rcases Nat.le_total (enclosure.stop first) (enclosure.stop second) with hle | hle
      · exact same_compile_text compiler enclosure hcontent hle
      · exact (same_compile_text compiler enclosure hcontent hle).symm
    exact ⟨hsame, fun made => hsame.ok_iff made⟩
  · intro text before after tag place h
    obtain ⟨front, rest, htext, hfront, hmake⟩ := Enclosure.exists_of_tokens h
    exact ⟨front, rest, htext, hfront, fun spelling back => hmake spelling.chars back⟩

theorem isTag_eval : IsTag ['e', 'v', 'a', 'l'] := by decide

theorem tagToken_eval : tagToken ['e', 'v', 'a', 'l'] = .start ['e', 'v', 'a', 'l'] := by decide

theorem cut_branch : Cut ['<', 'i', 'f', '>'] := by
  have htag : IsTag ['i', 'f'] := by decide
  exact @Cut.construct ['i', 'f'] [] _ (htag.ends []) .nil

/-- A condition in a branch. -/
def branchCondition : Enclosure where
  front := ['<', 'i', 'f', '>']
  tag := ['e', 'v', 'a', 'l']
  back := ['e', 'v', 'a', 'l', '>', '<', '/', 'i', 'f', '>']
  cut := cut_branch
  isTag := isTag_eval
  start := tagToken_eval

/-- A condition on the owner as text with a reference. -/
def ownerText : Spelling "(N.Owner) == ('a<b')".toList where
  pieces := [.text "(N.Owner) == ('a<b')".toList]
  whole := by decide +kernel
  comments := by simp

/-- The same condition in sections, cut within the literal, with a comment that looks like a tag. -/
def ownerSections : Spelling "(N.Owner) == ('a<b')".toList where
  pieces := [.data "(N.Owner) ".toList, .comment " </eval> ".toList, .text "== ('a".toList,
    .data "<b')".toList]
  whole := by decide +kernel
  comments := by
    intro body hbody
    simp only [List.mem_cons, reduceCtorEq, Piece.comment.injEq, List.not_mem_nil, or_false,
      false_or] at hbody
    rw [hbody]
    decide +kernel

/-- A condition on the owner makes the same tree in both spellings. -/
theorem compile_content_owner :
    branchCondition.text ownerText.chars = "<if><eval>(N.Owner) == ('a&lt;b')</eval></if>" ∧
      branchCondition.text ownerSections.chars =
        "<if><eval><![CDATA[(N.Owner) ]]><!-- </eval> -->== ('a<![CDATA[<b')]]></eval></if>" ∧
      ∃ tree next, (small 2).compile (branchCondition.text ownerText.chars) = .ok (tree, next) ∧
        (small 2).compile (branchCondition.text ownerSections.chars) = .ok (tree, next) ∧
        tree.root.allRules.map Rule.operands = [[.literal "a<b"]] := by
  have hcontent : ¬ [']', ']', '>'] <:+: "(N.Owner) == ('a<b')".toList := by decide +kernel
  obtain ⟨tree, next, htext, hoperands⟩ : ∃ tree next,
      (small 2).compile (branchCondition.text ownerText.chars) = .ok (tree, next) ∧
        tree.root.allRules.map Rule.operands = [[.literal "a<b"]] :=
    exists_compile (fun tree => tree.root.allRules.map Rule.operands) [[.literal "a<b"]]
      (by decide +kernel)
  obtain ⟨-, hiff⟩ := (compile_content (small 2) hcontent).1 branchCondition ownerText ownerSections
  exact ⟨by decide +kernel, by decide +kernel, tree, next, htext, (hiff (tree, next)).mp htext,
    hoperands⟩

/-- The place of the fault for which a document is refused, if it cannot be read as markup. -/
def faultPlace? : Except Refusal (RuleTree × Compiler) → Option Nat
  | .error (.markup (.broken place _)) => some place
  | _ => none

/-- A condition with an end tag of nothing behind it. -/
def strayCondition : Enclosure where
  front := []
  tag := ['e', 'v', 'a', 'l']
  back := ['e', 'v', 'a', 'l', '>', '<', '/', 'x', '>']
  cut := .nil
  isTag := isTag_eval
  start := tagToken_eval

/-- Spellings are not always refused with the same place: a fault behind the content is counted with
the bytes of the section. -/
theorem not_compile_content_always :
    ¬ ∀ (compiler : Compiler) (content : List Char) (enclosure : Enclosure)
      (first second : Spelling content), ¬ [']', ']', '>'] <:+: content →
      compiler.compile (enclosure.text first.chars) =
        compiler.compile (enclosure.text second.chars) := by
  intro hall
  let plain : Spelling ['a'] := ⟨[.text ['a']], rfl, by simp⟩
  let boxed : Spelling ['a'] := ⟨[.data ['a']], rfl, by simp⟩
  have hplain : faultPlace? ((small 2).compile (strayCondition.text plain.chars)) = some 18 := by
    decide +kernel
  have hboxed : faultPlace? ((small 2).compile (strayCondition.text boxed.chars)) = some 30 := by
    decide +kernel
  have hsame := hall (small 2) ['a'] strayCondition plain boxed (by decide +kernel)
  rw [hsame, hboxed] at hplain
  cases hplain

end Rulebook.Compiler
