import Rulebook.Proofs.Compiler.WellFormed
import Rulebook.Proofs.Export.Outline

/-!
# When written trees are accepted

What a compiled tree is written as says only things that can be added again: its rules were read
once from the texts that they keep. So the limit for nested elements alone decides whether the
written tree is compiled. It may refuse: a written tree has an element around its rule sets and an
element around each group of rules, where the document that it comes from may have neither.
-/

namespace Rulebook

namespace OutlineItem

mutual
/-- The rules that an item says can be read, whatever numbers they are given. -/
def Readable (reader : RuleReader) : OutlineItem → Prop
  | .rule label text => text ≠ "" ∧ ∀ id, ∃ rule, reader.read text id label = .ok rule
  | .node _ _ _ items => ReadableAll reader items
  | .join _ | .failureMessage _ | .customId _ => True

/-- The rules that items say can be read, whatever numbers they are given. -/
def ReadableAll (reader : RuleReader) : List OutlineItem → Prop
  | [] => True
  | item :: more => item.Readable reader ∧ ReadableAll reader more
end

/-- The rules of two lists can be read when those of both can. -/
theorem readableAll_append {reader : RuleReader} {left right : List OutlineItem}
    (hl : ReadableAll reader left) (hr : ReadableAll reader right) :
    ReadableAll reader (left ++ right) := by
  induction left with
  | nil => exact hr
  | cons item more ih => exact ⟨hl.1, ih hl.2⟩

end OutlineItem

open OutlineItem (Readable ReadableAll)

namespace RuleSet

mutual
/-- An item whose rules can be read can be added to every rule set. -/
theorem addItem_of_readable {reader : RuleReader} : (item : OutlineItem) → item.Readable reader →
    ∀ (set : RuleSet) (numbering : Numbering),
      ∃ result, addItem reader set numbering item = .ok result
  | .rule label text, h, set, numbering => by
    obtain ⟨hne, hread⟩ := h
    obtain ⟨rule, hr⟩ := hread (UInt32.ofNat numbering.nextRule)
    rw [addItem, Head.readRule, if_neg hne, hr]
    exact ⟨_, rfl⟩
  | .join combinator, _, set, numbering => ⟨_, by rw [addItem]; rfl⟩
  | .failureMessage text, _, set, numbering => by
    rw [addItem]
    split <;> exact ⟨_, rfl⟩
  | .customId text, _, set, numbering => by
    rw [addItem]
    split <;> exact ⟨_, rfl⟩
  | .node kind description severity items, h, set, numbering => by
    obtain ⟨⟨child, after⟩, hchild⟩ := addItems_of_readable items h
      ⟨{ id := UInt32.ofNat numbering.nextSet, parent := some set.id, kind, description, severity },
        []⟩ ⟨numbering.nextSet + 1, numbering.nextRule⟩
    rw [addItem]
    simp only [hchild]
    exact ⟨_, rfl⟩

/-- Items whose rules can be read can be added to every rule set. -/
theorem addItems_of_readable {reader : RuleReader} : (items : List OutlineItem) →
    ReadableAll reader items → ∀ (set : RuleSet) (numbering : Numbering),
      ∃ result, addItems reader set numbering items = .ok result
  | [], _, set, numbering => ⟨_, addItems_nil reader set numbering⟩
  | item :: more, h, set, numbering => by
    obtain ⟨⟨next, between⟩, hitem⟩ := addItem_of_readable item h.1 set numbering
    obtain ⟨result, hmore⟩ := addItems_of_readable more h.2 next between
    refine ⟨result, ?_⟩
    rw [addItems, hitem]
    exact hmore
end

end RuleSet

namespace Rule

/-- A rule that can be read again is written as a text that begins no tag. -/
theorem Readable.plain {reader : RuleReader} {rule : Rule} (h : rule.Readable reader) :
    rule.describe.Plain :=
  h.proper.2

/-- What a rule that can be read again is written as can be read. -/
theorem Readable.item {reader : RuleReader} {rule : Rule} (h : rule.Readable reader) :
    rule.describe.item.Readable reader := by
  have ht : Text.trimmed rule.describe.expression = rule.expression := h.proper.1
  rw [RuleDescription.item, ht]
  exact ⟨h.ne_empty, fun id => ⟨_, h.read id rule.label⟩⟩

end Rule

namespace RuleSetDescription

/-- Conditions can be read when each of them can. -/
theorem readable_criteriaItems {reader : RuleReader} (combinator : Combinator)
    {rules : List RuleDescription} (h : ∀ rule ∈ rules, rule.item.Readable reader) :
    ReadableAll reader (criteriaItems combinator rules) := by
  refine ⟨trivial, ?_⟩
  induction rules with
  | nil => trivial
  | cons rule more ih =>
    obtain ⟨hrule, hmore⟩ := List.forall_mem_cons.mp h
    exact ⟨hrule, ih hmore⟩

/-- The message and name of a failure hold no rules. -/
theorem readable_failureItems (reader : RuleReader) (head : Head) :
    ReadableAll reader head.failureItems := by
  unfold Head.failureItems
  split
  · cases head.failureMessage <;> cases head.customId <;> repeat constructor
  · trivial

end RuleSetDescription

namespace RuleSet

/-- The rules of a description of a rule set are the descriptions of its rules. -/
theorem Head.mem_describe_rules {head : Head} {rule : RuleDescription}
    (h : rule ∈ head.describe.evaluative ++ head.describe.assertive) :
    ∃ source ∈ head.rules, source.describe = rule := by
  have hmap : head.describe.evaluative ++ head.describe.assertive =
      head.rules.map Rule.describe := by
    rw [Head.rules, List.map_append, Head.describe]
  rw [hmap] at h
  exact List.mem_map.mp h

mutual
/-- No text of a tree begins a tag where it is written if the text of no rule does. -/
theorem plain_of_allRules : (set : RuleSet) → (∀ rule ∈ set.allRules, rule.describe.Plain) →
    set.describe.Plain
  | ⟨head, children⟩, h => by
    rw [allRules_mk] at h
    obtain ⟨hown, hbelow⟩ := List.forall_mem_append.mp h
    rw [describe, RuleSetDescription.Plain]
    refine ⟨fun rule hr => ?_, plain_of_allRulesAll children hbelow⟩
    obtain ⟨source, hs, rfl⟩ := Head.mem_describe_rules hr
    exact hown source hs

/-- No text of some trees begins a tag where they are written if the text of no rule does. -/
theorem plain_of_allRulesAll : (sets : List RuleSet) →
    (∀ rule ∈ allRulesAll sets, rule.describe.Plain) →
    RuleSetDescription.PlainAll (describeAll sets)
  | [], _ => trivial
  | set :: more, h => by
    rw [allRulesAll_cons] at h
    obtain ⟨hset, hmore⟩ := List.forall_mem_append.mp h
    exact ⟨plain_of_allRules set hset, plain_of_allRulesAll more hmore⟩
end

mutual
/-- What a tree is written as can be read if its rules can. -/
theorem readable_of_allRules {reader : RuleReader} : (set : RuleSet) →
    (∀ rule ∈ set.allRules, rule.describe.item.Readable reader) →
    ReadableAll reader set.describe.items
  | ⟨head, children⟩, h => by
    rw [allRules_mk] at h
    obtain ⟨hown, hbelow⟩ := List.forall_mem_append.mp h
    have hpending : ∀ rule ∈ head.describe.sortedRules, rule.item.Readable reader := by
      intro rule hr
      obtain ⟨source, hs, rfl⟩ :=
        Head.mem_describe_rules (RuleSetDescription.Head.mem_sortedRules.mp hr)
      exact hown source hs
    have hinside : ReadableAll reader (head.describe.failureItems ++
        RuleSetDescription.bodyItems head.describe.combinator head.describe.sortedRules false
          (describeAll children)) :=
      OutlineItem.readableAll_append (RuleSetDescription.readable_failureItems reader head.describe)
        (readable_of_allRulesAll children hbelow head.describe.combinator hpending false)
    rw [describe, RuleSetDescription.items]
    cases head.describe.kind with
    | root => exact hinside
    | flow => exact ⟨hinside, trivial⟩
    | validate => exact ⟨hinside, trivial⟩

/-- What rules and trees are written as can be read if all their rules can. -/
theorem readable_of_allRulesAll {reader : RuleReader} : (sets : List RuleSet) →
    (∀ rule ∈ allRulesAll sets, rule.describe.item.Readable reader) → (combinator : Combinator) →
    {pending : List RuleDescription} → (∀ rule ∈ pending, rule.item.Readable reader) →
    (written : Bool) → ReadableAll reader
      (RuleSetDescription.bodyItems combinator pending written (describeAll sets))
  | [], _, combinator, pending, hp, written => by
    rw [describeAll, RuleSetDescription.bodyItems]
    split
    · exact RuleSetDescription.readable_criteriaItems combinator hp
    · trivial
  | set :: more, h, combinator, pending, hp, written => by
    rw [allRulesAll_cons] at h
    obtain ⟨hset, hmore⟩ := List.forall_mem_append.mp h
    rw [describeAll, RuleSetDescription.bodyItems]
    have hs := RuleSetDescription.splitRules_append set.describe.firstRuleId pending
    generalize RuleSetDescription.splitRules set.describe.firstRuleId pending = parts at hs ⊢
    obtain ⟨front, rest⟩ := parts
    dsimp only at hs ⊢
    subst hs
    obtain ⟨hfront, hrest⟩ := List.forall_mem_append.mp hp
    refine OutlineItem.readableAll_append ?_ (OutlineItem.readableAll_append ?_ ?_)
    · split
      · trivial
      · exact RuleSetDescription.readable_criteriaItems combinator hfront
    · exact readable_of_allRules set hset
    · exact readable_of_allRulesAll more hmore combinator hrest _
end

/-- The rules of a sound tree can be read again. -/
theorem readable_of_sound {reader : RuleReader} {set : RuleSet}
    (h : ∀ node ∈ set.preorder, node.Sound reader) :
    ∀ rule ∈ set.allRules, rule.Readable reader := by
  intro rule hr
  obtain ⟨node, hn, hr⟩ := List.mem_flatMap.mp hr
  exact (h node hn).rules rule hr

/-- No text of a sound tree begins a tag where it is written. -/
theorem plain_describe {reader : RuleReader} (set : RuleSet)
    (h : ∀ node ∈ set.preorder, node.Sound reader) : set.describe.Plain :=
  plain_of_allRules set fun rule hr => (readable_of_sound h rule hr).plain

/-- What a sound tree is written as can be read. -/
theorem readable_describe {reader : RuleReader} (set : RuleSet)
    (h : ∀ node ∈ set.preorder, node.Sound reader) : ReadableAll reader set.describe.items :=
  readable_of_allRules set fun rule hr => (readable_of_sound h rule hr).item

end RuleSet

namespace Compiler

/-- A written description is not blank. -/
theorem trimmed_document_ne (set : RuleSetDescription) :
    Text.trimmed (Markup.Event.document set.events) ≠ "" := by
  obtain ⟨rest, hr⟩ := set.exists_render_cons
  refine Text.trimmed_ne_of_mem (by decide) (c := '<') ?_
  rw [Markup.Event.document, String.toList_ofList, hr]
  exact List.mem_cons_self

/-- A written description that fits the limit for nested elements is compiled as what it says. -/
theorem compileRoot_document {compiler : Compiler} {set : RuleSetDescription} (hp : set.Plain)
    (hd : set.nesting ≤ compiler.maxDepth) :
    compiler.compileRoot (Markup.Event.document set.events) =
      RuleSet.ofOutline compiler.reader set.items := by
  obtain ⟨document, hread, hne, hitems⟩ := RuleSetDescription.readDocument_eq_ok hp hd
  have he : document.children.isEmpty = false := List.isEmpty_eq_false_iff.mpr hne
  rw [compileRoot, if_neg (trimmed_document_ne set), hread]
  simp only [bind, Except.bind, he, Bool.false_eq_true, if_false, hitems]

/-- A written description that fits the limit for nested elements and whose rules can be read is
compiled by adding what it says to the empty root. -/
theorem exists_compileRoot_document {compiler : Compiler} {set : RuleSetDescription}
    (hp : set.Plain) (hd : set.nesting ≤ compiler.maxDepth)
    (hr : ReadableAll compiler.reader set.items) :
    ∃ root after, RuleSet.addItems compiler.reader RuleSet.root {} set.items = .ok (root, after) ∧
      compiler.compileRoot (Markup.Event.document set.events) = .ok root := by
  obtain ⟨⟨root, after⟩, hadd⟩ := RuleSet.addItems_of_readable set.items hr RuleSet.root {}
  refine ⟨root, after, hadd, ?_⟩
  rw [compileRoot_document hp hd, RuleSet.ofOutline, hadd]
  rfl

/-- A written description that does not fit the limit for nested elements is refused for that. -/
theorem compileRoot_document_tooDeep {compiler : Compiler} {set : RuleSetDescription}
    (hp : set.Plain) (hd : compiler.maxDepth < set.nesting) :
    compiler.compileRoot (Markup.Event.document set.events) =
      .error (.tooDeep compiler.maxDepth) := by
  rw [compileRoot, if_neg (trimmed_document_ne set),
    RuleSetDescription.readDocument_eq_tooDeep hp hd]
  rfl

/-- Making a tree is refused for the reason for which the root is refused. -/
theorem compile_of_compileRoot_error {compiler : Compiler} {markup : String} {refusal : Refusal}
    (h : compiler.compileRoot markup = .error refusal) :
    compiler.compile markup = .error refusal := by
  rw [compile, h]
  rfl

section Written

variable {compiler next : Compiler} {markup : String} {tree : RuleTree}

/-- The written form of a compiled tree is accepted when its elements fit the limit. -/
theorem compile_written_of_le (h : compiler.compile markup = .ok (tree, next))
    (hfits : tree.describe.root.nesting ≤ compiler.maxDepth) :
    ∃ again later, next.compile tree.describe.markup = .ok (again, later) := by
  obtain ⟨hroot, -, hnext⟩ := compile_cases h
  have hsound := sound_of_compileRoot hroot
  have hd : next.maxDepth = compiler.maxDepth := by rw [hnext]
  have hr : next.reader = compiler.reader := by rw [hnext]
  obtain ⟨root, after, -, hagain⟩ := exists_compileRoot_document
    (RuleSet.plain_describe tree.root hsound) (hd ▸ hfits)
    (hr ▸ RuleSet.readable_describe tree.root hsound)
  exact ⟨_, _, compile_of_compileRoot hagain⟩

/-- The written form of a compiled tree is refused as too deep when its elements do not fit the
limit. -/
theorem compile_written_of_lt (h : compiler.compile markup = .ok (tree, next))
    (hdeep : compiler.maxDepth < tree.describe.root.nesting) :
    next.compile tree.describe.markup = .error (.tooDeep compiler.maxDepth) := by
  obtain ⟨hroot, -, hnext⟩ := compile_cases h
  have hplain := RuleSet.plain_describe tree.root (sound_of_compileRoot hroot)
  have hd : next.maxDepth = compiler.maxDepth := by rw [hnext]
  refine compile_of_compileRoot_error ?_
  rw [← hd] at hdeep ⊢
  exact compileRoot_document_tooDeep hplain hdeep

/-- The written form of a compiled tree is accepted by the same compiler exactly when its elements
are nested no deeper than the limit, and is refused as too deep otherwise. -/
theorem compile_written (h : compiler.compile markup = .ok (tree, next)) :
    (tree.describe.root.nesting ≤ compiler.maxDepth →
      ∃ again later, next.compile tree.describe.markup = .ok (again, later)) ∧
    (compiler.maxDepth < tree.describe.root.nesting →
      next.compile tree.describe.markup = .error (.tooDeep compiler.maxDepth)) :=
  ⟨compile_written_of_le h, compile_written_of_lt h⟩

end Written

/-- A document with three nested elements is written with four: it is accepted again where the limit
is four, and refused where it is three. -/
theorem compile_written_small :
    (∃ tree next again later, (small 4).compile smallMarkup = .ok (tree, next) ∧
      tree.describe.root.nesting ≤ 4 ∧ next.compile tree.describe.markup = .ok (again, later)) ∧
    (∃ tree next, (small 3).compile smallMarkup = .ok (tree, next) ∧
      3 < tree.describe.root.nesting ∧
      next.compile tree.describe.markup = .error (.tooDeep 3)) := by
  constructor
  · obtain ⟨tree, next, hc, hn⟩ : ∃ tree next, (small 4).compile smallMarkup = .ok (tree, next) ∧
        tree.describe.root.nesting = 4 :=
      exists_compile (fun tree => tree.describe.root.nesting) 4 (by decide +kernel)
    have hfits : tree.describe.root.nesting ≤ (small 4).maxDepth := hn.le
    obtain ⟨again, later, hagain⟩ := (compile_written hc).1 hfits
    exact ⟨tree, next, again, later, hc, hfits, hagain⟩
  · obtain ⟨tree, next, hc, hn⟩ : ∃ tree next, (small 3).compile smallMarkup = .ok (tree, next) ∧
        tree.describe.root.nesting = 4 :=
      exists_compile (fun tree => tree.describe.root.nesting) 4 (by decide +kernel)
    have hdeep : (small 3).maxDepth < tree.describe.root.nesting := hn.ge
    exact ⟨tree, next, hc, hdeep, (compile_written hc).2 hdeep⟩

/-- Not every written tree is accepted: with a limit of one, a rule set alone is compiled, and what
the tree is written as is too deep. -/
theorem not_compile_written_always :
    ¬ ∀ (compiler next : Compiler) (markup : String) (tree : RuleTree),
      compiler.compile markup = .ok (tree, next) →
      ∃ again later, next.compile tree.describe.markup = .ok (again, later) := by
  intro h
  obtain ⟨tree, next, hc, hn⟩ : ∃ tree next, (small 1).compile "<if></if>" = .ok (tree, next) ∧
      tree.describe.root.nesting = 2 :=
    exists_compile (fun tree => tree.describe.root.nesting) 2 (by decide +kernel)
  have hdeep : (small 1).maxDepth < tree.describe.root.nesting := hn.ge
  obtain ⟨again, later, hagain⟩ := h (small 1) next "<if></if>" tree hc
  rw [compile_written_of_lt hc hdeep] at hagain
  cases hagain

end Compiler

end Rulebook
