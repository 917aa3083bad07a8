import Rulebook.Proofs.Export.RoundTrip

/-!
# Messages and names of failures in written trees

A tree may hold a message or a name that begins or ends with a blank: the references in a text are
resolved after the blanks around it were dropped, and one of them may stand for a blank. It is
written as the blank itself, and reading the written form drops it. All the rest of a message or a
name comes back, at the same place of the tree: children are written in order, whatever numbers
they and their rules have.
-/

namespace Rulebook

namespace RuleSet

/-- What a rule set says about failures comes back without the blanks around it. -/
structure Recalls (set again : RuleSet) : Prop where
  /-- It is for the same. -/
  kind : again.head.kind = set.head.kind
  /-- It is described in the same way. -/
  description : again.head.description = set.head.description
  /-- Failures are as grave. -/
  severity : again.head.severity = set.head.severity
  /-- The message is there if there was one, without the blanks around it. -/
  failureMessage : again.head.failureMessage = set.head.failureMessage.map Text.trimmed
  /-- The name is there if there was one, without the blanks around it. -/
  customId : again.head.customId = set.head.customId.map Text.trimmed
  /-- Exactly the messages without blanks around them are the same. -/
  same_failureMessage : again.head.failureMessage = set.head.failureMessage ↔
    set.head.failureMessage.any Text.hasOuterBlank = false
  /-- Exactly the names without blanks around them are the same. -/
  same_customId : again.head.customId = set.head.customId ↔
    set.head.customId.any Text.hasOuterBlank = false

/-- A message and a name come back if they are trimmed and the rest stays. -/
theorem Recalls.of_trimmed {set again : RuleSet} (hkind : again.head.kind = set.head.kind)
    (hdescription : again.head.description = set.head.description)
    (hseverity : again.head.severity = set.head.severity)
    (hmessage : again.head.failureMessage = set.head.failureMessage.map Text.trimmed)
    (hname : again.head.customId = set.head.customId.map Text.trimmed) : Recalls set again := by
  refine ⟨hkind, hdescription, hseverity, hmessage, hname, ?_, ?_⟩
  · rw [hmessage]
    exact Text.map_trimmed_eq_self_iff
  · rw [hname]
    exact Text.map_trimmed_eq_self_iff

/-- Two trees have rule sets at the same places, and what a rule set of the first one says about
failures comes back in the second one. -/
def Mirrors (set again : RuleSet) : Prop :=
  ∀ path, Option.Rel Recalls (set.at? path) (again.at? path)

/-- Trees that mirror each other in order have rule sets at the same places. -/
theorem Mirrors.at?_of_forall₂ {sets others : List RuleSet} (h : List.Forall₂ Mirrors sets others)
    (place : Nat) (path : List Nat) :
    Option.Rel Recalls (sets[place]?.bind fun set => set.at? path)
      (others[place]?.bind fun set => set.at? path) := by
  induction h generalizing place with
  | nil => exact .none
  | cons hfirst _ ih =>
    cases place with
    | zero => exact hfirst path
    | succ place => exact ih place

/-- Trees mirror each other when their roots and, in order, their children do. -/
theorem Mirrors.of_children {head head' : Head} {children children' : List RuleSet}
    (hh : Recalls ⟨head, children⟩ ⟨head', children'⟩)
    (hc : List.Forall₂ Mirrors children children') :
    Mirrors ⟨head, children⟩ ⟨head', children'⟩ := by
  intro path
  cases path with
  | nil => exact .some hh
  | cons place more => exact at?_of_forall₂ hc place more

/-- Adding conditions changes neither what a rule set is and says about failures nor its children.
-/
theorem addItems_criteriaItems_named {reader : RuleReader} {combinator : Combinator}
    {rules : List RuleDescription} {set last : RuleSet} {numbering after : Numbering}
    (h : addItems reader set numbering (RuleSetDescription.criteriaItems combinator rules) =
      .ok (last, after)) : last.head.named = set.head.named ∧ last.children = set.children := by
  obtain ⟨next, between, hjoin, hrules⟩ := addItems_cons h
  have hnext : next.head.named = set.head.named ∧ next.children = set.children := by
    rw [addItem] at hjoin
    cases hjoin
    exact ⟨rfl, rfl⟩
  rw [← hnext.1, ← hnext.2]
  clear h hjoin hnext
  induction rules generalizing next between with
  | nil =>
    rw [List.map_nil, addItems_nil] at hrules
    cases hrules
    exact ⟨rfl, rfl⟩
  | cons rule more ih =>
    obtain ⟨head, children⟩ := next
    obtain ⟨later, behind, hrule, hmore⟩ := addItems_cons hrules
    obtain ⟨-, read, -, rfl, rfl⟩ := addItem_rule hrule
    have hnamed : (head.addRule read).named = head.named := by
      unfold Head.addRule
      split <;> rfl
    have hlast := ih _ _ hmore
    rw [hnamed] at hlast
    exact hlast

mutual
/-- What stands in the element of a sound rule set makes a rule set that mirrors it, under every
number. -/
theorem mirrors_inside {reader : RuleReader} : (set : RuleSet) →
    (∀ node ∈ set.preorder, node.Sound reader) →
    ∀ {id : UInt32} {parent : Option UInt32} {numbering after : Numbering} {last : RuleSet},
    addItems reader ⟨{ set.head.bare with id, parent }, []⟩ numbering set.inside =
      .ok (last, after) → set.Mirrors last
  | ⟨head, children⟩, h, id, parent, numbering, after, ⟨last, made⟩, hadd => by
    obtain ⟨hsound, hbelow⟩ := List.forall_mem_cons.mp h
    obtain ⟨next, between, hnames, hbody⟩ := addItems_of_append hadd
    have hfailure := addItems_failureItems reader { head.bare with id, parent } head numbering rfl
      rfl rfl fun hk => (hsound.names hk).2
    rw [hfailure] at hnames
    cases hnames
    obtain ⟨hnamed, below, hchildren, hall⟩ := mirrors_body children hbelow hsound.kinds hbody
    obtain rfl : made = below := hchildren.trans (List.nil_append below)
    exact Mirrors.of_children (.of_trimmed (congrArg Head.kind hnamed :)
      (congrArg Head.description hnamed :) (congrArg Head.severity hnamed :)
      (congrArg Head.failureMessage hnamed :) (congrArg Head.customId hnamed :)) hall

/-- What rules and sound rule sets are written as adds rule sets that mirror them, in order. -/
theorem mirrors_body {reader : RuleReader} : (children : List RuleSet) →
    (∀ node ∈ preorderAll children, node.Sound reader) →
    (∀ child ∈ children, child.head.kind ≠ .root) →
    ∀ {combinator : Combinator} {pending : List RuleDescription} {written : Bool}
      {set last : RuleSet} {numbering after : Numbering},
    addItems reader set numbering
        (RuleSetDescription.bodyItems combinator pending written (describeAll children)) =
      .ok (last, after) →
    last.head.named = set.head.named ∧ ∃ made, last.children = set.children ++ made ∧
      List.Forall₂ Mirrors children made
  | [], _, _, combinator, pending, written, set, last, numbering, after, hadd => by
    rw [describeAll, RuleSetDescription.bodyItems] at hadd
    split at hadd
    · obtain ⟨hnamed, hchildren⟩ := addItems_criteriaItems_named hadd
      exact ⟨hnamed, [], by rw [hchildren, List.append_nil], .nil⟩
    · rw [addItems_nil] at hadd
      cases hadd
      exact ⟨rfl, [], (List.append_nil _).symm, .nil⟩
  | child :: more, h, hkinds, combinator, pending, written, set, last, numbering, after, hadd => by
    obtain ⟨hchild, hmore⟩ := List.forall_mem_append.mp h
    obtain ⟨hkind, hothers⟩ := List.forall_mem_cons.mp hkinds
    rw [describeAll, RuleSetDescription.bodyItems] at hadd
    generalize RuleSetDescription.splitRules child.describe.firstRuleId pending = parts at hadd
    obtain ⟨front, rest⟩ := parts
    obtain ⟨⟨head, before⟩, between, hfront, hbehind⟩ := addItems_of_append hadd
    obtain ⟨later, behind, hnode, hlast⟩ := addItems_of_append hbehind
    have hnext : head.named = set.head.named ∧ before = set.children := by
      split at hfront
      · rw [addItems_nil] at hfront
        cases hfront
        exact ⟨rfl, rfl⟩
      · exact addItems_criteriaItems_named hfront
    have hsound := hchild child child.mem_preorder_self
    rw [describe_items hkind fun hk => (hsound.names hk).1] at hnode
    obtain ⟨next, last', hitem, hnil⟩ := addItems_cons hnode
    rw [addItems_nil] at hnil
    cases hnil
    obtain ⟨again, hinside, rfl⟩ := addItem_node hitem
    have hmirror : child.Mirrors again := mirrors_inside child hchild hinside
    obtain ⟨hnamed, made, hchildren, hall⟩ := mirrors_body more hmore hothers hlast
    refine ⟨hnamed.trans hnext.1, again :: made, ?_, .cons hmirror hall⟩
    rw [hchildren, hnext.2, List.append_assoc]
    rfl
end

end RuleSet

namespace Compiler

variable {compiler next later : Compiler} {markup : String} {tree again : RuleTree}

/-- A tree that is compiled from what a compiled tree is written as mirrors this one. -/
theorem mirrors_of_compile (h : compiler.compile markup = .ok (tree, next))
    (hagain : next.compile tree.describe.markup = .ok (again, later)) :
    tree.root.Mirrors again.root := by
  obtain ⟨hroot, -, hnext⟩ := compile_cases h
  obtain ⟨hroot', -, -⟩ := compile_cases hagain
  have hsound := sound_of_compileRoot hroot
  have hr : next.reader = compiler.reader := by rw [hnext]
  have hd : next.maxDepth = compiler.maxDepth := by rw [hnext]
  have hfits : tree.root.describe.nesting ≤ next.maxDepth := by
    by_contra hdeep
    have hrefused := compile_written_of_lt h (hd ▸ Nat.lt_of_not_le hdeep)
    rw [hagain] at hrefused
    cases hrefused
  obtain ⟨root, after, hadd, hmade⟩ := exists_compileRoot_document
    (RuleSet.plain_describe tree.root hsound) hfits
    (hr ▸ RuleSet.readable_describe tree.root hsound)
  have hroots : root = again.root := Except.ok.inj (hmade.symm.trans hroot')
  obtain ⟨hbare, hkind⟩ := bare_of_compileRoot hroot
  have hstart : RuleSet.root = ⟨tree.root.head.bare, []⟩ := by
    rw [hbare]
    rfl
  rw [RuleSet.describe_items_root hkind, hstart, hr] at hadd
  rw [← hroots]
  exact RuleSet.mirrors_inside tree.root hsound hadd

/-- A compiled tree whose written form fits the limit for nested elements is written as a document
that the same compiler compiles again, and the rule sets of the new tree stand at the places of the
old ones: messages and names of failures are the same where no blank stands around them, and lose
the blanks around them otherwise. -/
theorem compile_written_names (h : compiler.compile markup = .ok (tree, next))
    (hfits : tree.describe.root.nesting ≤ compiler.maxDepth) :
    ∃ again later, next.compile tree.describe.markup = .ok (again, later) ∧
      tree.root.Mirrors again.root := by
  obtain ⟨again, later, hagain⟩ := compile_written_of_le h hfits
  exact ⟨again, later, hagain, mirrors_of_compile h hagain⟩

/-- A check whose message begins with a reference for a blank, and whose name has a reference in it.
-/
def blankMarkup : String :=
  "<validate err=\"severe\"><failure_message>&#32;late</failure_message>" ++
    "<customId>A &amp; B</customId></validate>"

/-- What the check says about failures is kept with the blank. -/
theorem exists_compile_blankMarkup : ∃ tree next,
    (small 5).compile blankMarkup = .ok (tree, next) ∧ tree.describe.root.nesting ≤ 5 ∧
      (tree.root.at? [0]).map (fun set => (set.head.failureMessage, set.head.customId)) =
        some (some " late", some "A & B") := by
  obtain ⟨tree, next, hc, hf⟩ : ∃ tree next, (small 5).compile blankMarkup = .ok (tree, next) ∧
      (decide (tree.describe.root.nesting ≤ 5), (tree.root.at? [0]).map fun set =>
        (set.head.failureMessage, set.head.customId)) =
          (true, some (some " late", some "A & B")) :=
    exists_compile (fun tree => (decide (tree.describe.root.nesting ≤ 5),
      (tree.root.at? [0]).map fun set => (set.head.failureMessage, set.head.customId)))
      (true, some (some " late", some "A & B")) (by decide +kernel)
  obtain ⟨hfits, hnames⟩ := Prod.mk.inj hf
  exact ⟨tree, next, hc, of_decide_eq_true hfits, hnames⟩

/-- The tree of the check is written as a document whose tree mirrors it. -/
theorem compile_written_names_blank : ∃ tree next again later,
    (small 5).compile blankMarkup = .ok (tree, next) ∧ tree.describe.root.nesting ≤ 5 ∧
      next.compile tree.describe.markup = .ok (again, later) ∧ tree.root.Mirrors again.root := by
  obtain ⟨tree, next, hc, hfits, -⟩ := exists_compile_blankMarkup
  obtain ⟨again, later, hagain⟩ := compile_written_names hc hfits
  exact ⟨tree, next, again, later, hc, hfits, hagain⟩

/-- Not every message comes back as it was: the blank in front of this one is lost. -/
theorem not_compile_written_names_always :
    ¬ ∀ (compiler next : Compiler) (markup : String) (tree : RuleTree),
      compiler.compile markup = .ok (tree, next) →
      tree.describe.root.nesting ≤ compiler.maxDepth →
      ∃ again later, next.compile tree.describe.markup = .ok (again, later) ∧
        ∀ path, (again.root.at? path).map (fun set => set.head.failureMessage) =
          (tree.root.at? path).map fun set => set.head.failureMessage := by
  intro h
  obtain ⟨tree, next, hc, hfits, hnames⟩ := exists_compile_blankMarkup
  obtain ⟨again, later, hagain, hsame⟩ := h (small 5) next blankMarkup tree hc hfits
  have hplace := hsame [0]
  have hmirror := mirrors_of_compile hc hagain [0]
  obtain ⟨node, hnode, hmessage⟩ := Option.map_eq_some_iff.mp hnames
  rw [hnode] at hplace hmirror
  cases hother : again.root.at? [0] with
  | none =>
    rw [hother] at hplace
    cases hplace
  | some other =>
    rw [hother] at hplace hmirror
    cases hmirror with
    | some hrecalls =>
      have hfree := hrecalls.same_failureMessage.mp (Option.some.inj hplace)
      rw [(Prod.mk.inj hmessage).1] at hfree
      exact absurd hfree (by decide)

end Compiler

end Rulebook
