import Rulebook.Proofs.Export.Acceptance
import Rulebook.Proofs.Export.Placing

/-!
# Written trees are compiled back

What a compiled tree is written as gives the same tree again: the rules come back in the order of
their numbers and are given these numbers, the children come back between them, and each rule is
read from the text that it keeps. The induction follows the tree; for the rules and children of one
rule set it goes over the children, with the rules that are still to come, and tells which rule set
has been made so far.
-/

namespace Rulebook

namespace RuleSet

/-- A head with rules added in order. -/
def Head.addRules (head : Head) (rules : List Rule) : Head := rules.foldl Head.addRule head

theorem Head.addRules_append (head : Head) (left right : List Rule) :
    head.addRules (left ++ right) = (head.addRules left).addRules right :=
  List.foldl_append

/-- Adding rules fills the two lists of rules and changes nothing else. -/
theorem Head.addRules_eq (head : Head) (rules : List Rule) :
    head.addRules rules =
      { head with
        evaluative := head.evaluative ++ rules.filter Rule.isPassive
        assertive := head.assertive ++ rules.filter (fun rule => !rule.isPassive) } := by
  induction rules generalizing head with
  | nil => simp only [addRules, List.foldl_nil, List.filter_nil, List.append_nil]
  | cons rule more ih =>
    have hstep : head.addRules (rule :: more) = (head.addRule rule).addRules more := rfl
    rw [hstep, ih, addRule]
    cases hp : rule.isPassive with
    | true => simp [hp]
    | false => simp [hp]

/-- Items are added behind those that could be added. -/
theorem addItems_behind {reader : RuleReader} {set next : RuleSet} {numbering between : Numbering}
    {left : List OutlineItem} (h : addItems reader set numbering left = .ok (next, between))
    (right : List OutlineItem) :
    addItems reader set numbering (left ++ right) = addItems reader next between right := by
  rw [addItems_append, h]
  rfl

/-- A rule that keeps its number is added again when this number comes next. -/
theorem addItem_describe {reader : RuleReader} {head : Head} {children : List RuleSet}
    {nextSet : Nat} {rule : Rule} (h : rule.Readable reader) :
    addItem reader ⟨head, children⟩ ⟨nextSet, rule.id.toNat⟩ rule.describe.item =
      .ok (⟨head.addRule rule, children⟩, ⟨nextSet, rule.id.toNat + 1⟩) := by
  have ht : Text.trimmed rule.describe.expression = rule.expression := h.proper.1
  have hid : UInt32.ofNat rule.id.toNat = rule.id := UInt32.ofNat_toNat
  rw [RuleDescription.item, ht, addItem, Head.readRule, if_neg h.ne_empty]
  simp only [hid]
  rw [h.read]
  rfl

/-- Rules with consecutive numbers are added again when the first of these numbers comes next. -/
theorem addItems_describe {reader : RuleReader} {head : Head} {children : List RuleSet}
    {nextSet nextRule : Nat} {rules : List Rule} (h : ∀ rule ∈ rules, rule.Readable reader)
    (hn : numbers rules = List.range' nextRule rules.length) :
    addItems reader ⟨head, children⟩ ⟨nextSet, nextRule⟩
        ((rules.map Rule.describe).map RuleDescription.item) =
      .ok (⟨head.addRules rules, children⟩, ⟨nextSet, nextRule + rules.length⟩) := by
  induction rules generalizing head nextRule with
  | nil =>
    rw [List.map_nil, List.map_nil, addItems]
    rfl
  | cons rule more ih =>
    obtain ⟨hrule, hmore⟩ := List.forall_mem_cons.mp h
    rw [numbers, List.map_cons, List.length_cons, List.range'_succ, List.cons.injEq] at hn
    obtain ⟨rfl, hnumbers⟩ := hn
    rw [List.map_cons, List.map_cons, addItems, addItem_describe hrule]
    refine (ih hmore hnumbers).trans ?_
    rw [List.length_cons, Nat.add_assoc, Nat.add_comm 1]
    rfl

/-- A head whose conditions are joined in some way. -/
def Head.joined (head : Head) (combinator : Combinator) : Head := { head with combinator }

theorem Head.joined_eq_self {head : Head} {combinator : Combinator}
    (h : head.combinator = combinator) : head.joined combinator = head := by
  rw [joined, ← h]

/-- Conditions with consecutive numbers are added again, and with them how they are joined. -/
theorem addItems_criteriaItems {reader : RuleReader} {head : Head} {children : List RuleSet}
    {nextSet nextRule : Nat} (combinator : Combinator) {rules : List Rule}
    (h : ∀ rule ∈ rules, rule.Readable reader)
    (hn : numbers rules = List.range' nextRule rules.length) :
    addItems reader ⟨head, children⟩ ⟨nextSet, nextRule⟩
        (RuleSetDescription.criteriaItems combinator (rules.map Rule.describe)) =
      .ok (⟨(head.joined combinator).addRules rules, children⟩,
        ⟨nextSet, nextRule + rules.length⟩) := by
  rw [RuleSetDescription.criteriaItems, addItems, addItem]
  exact addItems_describe h hn

/-- The message and the name of a failure neither begin nor end with a blank. -/
def Head.KeepsNames (head : Head) : Prop :=
  head.failureMessage.any Text.hasOuterBlank = false ∧
    head.customId.any Text.hasOuterBlank = false

instance (head : Head) : Decidable head.KeepsNames := inferInstanceAs (Decidable (_ ∧ _))

/-- A text that may be there is added to its field of a head without the blanks around it. -/
theorem addItems_field (reader : RuleReader) (children : List RuleSet) (numbering : Numbering)
    (item : String → OutlineItem) (filled : Option String → Head)
    (hadd : ∀ text, addItem reader ⟨filled none, children⟩ numbering (item text) =
      .ok (⟨filled (some text), children⟩, numbering)) (field : Option String) :
    addItems reader ⟨filled none, children⟩ numbering
        (field.map fun text => item (Text.trimmed text)).toList =
      .ok (⟨filled (field.map Text.trimmed), children⟩, numbering) := by
  cases field with
  | none => exact addItems_nil reader ⟨filled none, children⟩ numbering
  | some text =>
    rw [Option.map_some, Option.toList_some, addItems, hadd]
    exact addItems_nil reader ⟨filled (some (Text.trimmed text)), children⟩ numbering

/-- The message and the name of a failure are added without the blanks around them, where there may
be any. -/
theorem addItems_failureItems (reader : RuleReader) (start head : Head) (numbering : Numbering)
    (hkind : start.kind = head.kind) (hmessage : start.failureMessage = none)
    (hname : start.customId = none)
    (hnames : head.kind ≠ .validate → head.failureMessage = none ∧ head.customId = none) :
    addItems reader ⟨start, []⟩ numbering head.describe.failureItems =
      .ok (⟨{ start with
        failureMessage := head.failureMessage.map Text.trimmed
        customId := head.customId.map Text.trimmed }, []⟩, numbering) := by
  have hsame : { start with failureMessage := none, customId := none } = start := by
    cases start
    cases hmessage
    cases hname
    rfl
  by_cases hk : head.kind = .validate
  · have hv : start.isValidate = true := by
      rw [Head.isValidate, hkind, hk]
      rfl
    have hitems : head.describe.failureItems =
        (head.failureMessage.map fun text =>
          OutlineItem.failureMessage (Text.trimmed text)).toList ++
          (head.customId.map fun text => OutlineItem.customId (Text.trimmed text)).toList :=
      if_pos hk
    have hfirst := addItems_field reader [] numbering .failureMessage
      (fun message => { start with failureMessage := message, customId := none })
      (fun _ => if_pos hv) head.failureMessage
    have hsecond := addItems_field reader [] numbering .customId
      (fun name =>
        { start with failureMessage := head.failureMessage.map Text.trimmed, customId := name })
      (fun _ => if_pos hv) head.customId
    rw [hsame] at hfirst
    rw [hitems, addItems_behind hfirst, hsecond]
  · obtain ⟨hnomessage, hnoname⟩ := hnames hk
    have hitems : head.describe.failureItems = [] := if_neg hk
    rw [hitems, hnomessage, hnoname, Option.map_none, hsame]
    exact addItems_nil reader ⟨start, []⟩ numbering

/-- A head before anything is added to it. -/
def Head.bare (head : Head) : Head where
  id := head.id
  parent := head.parent
  kind := head.kind
  description := head.description
  severity := head.severity

/-- A head with the message and the name of a failure, before anything else is added to it. -/
def Head.named (head : Head) : Head :=
  { head.bare with failureMessage := head.failureMessage, customId := head.customId }

/-- What stands in the element of a rule set. -/
def inside (set : RuleSet) : List OutlineItem :=
  set.head.describe.failureItems ++
    RuleSetDescription.bodyItems set.head.describe.combinator set.head.describe.sortedRules false
      (describeAll set.children)

/-- A rule set below the root is written as one element. -/
theorem describe_items {set : RuleSet} (hk : set.head.kind ≠ .root)
    (hs : set.head.kind ≠ .validate → set.head.severity = none) :
    set.describe.items =
      [.node set.head.kind set.head.description set.head.severity set.inside] := by
  obtain ⟨head, children⟩ := set
  have hkind : head.describe.kind = head.kind := rfl
  rw [describe, RuleSetDescription.items]
  simp only [hkind] at hk hs ⊢
  cases hc : head.kind with
  | root => exact absurd hc hk
  | flow =>
    rw [hs (by rw [hc]; decide)]
    rfl
  | validate => rfl

/-- A root is written as what stands in its element. -/
theorem describe_items_root {set : RuleSet} (hk : set.head.kind = .root) :
    set.describe.items = set.inside := by
  obtain ⟨head, children⟩ := set
  have hroot : head.describe.kind = .root := hk
  rw [describe, RuleSetDescription.items]
  simp only [hroot]
  rfl

/-- A rule set below is added again when what stands in its element is. -/
theorem addItems_child {reader : RuleReader} (head : Head) (children : List RuleSet)
    {child : RuleSet} {nextSet nextRule : Nat} {after : Numbering}
    (hk : child.head.kind ≠ .root) (hs : child.head.kind ≠ .validate → child.head.severity = none)
    (hp : child.head.parent = some head.id) (hid : child.head.id.toNat = nextSet)
    (hin : addItems reader ⟨child.head.bare, []⟩ ⟨nextSet + 1, nextRule⟩ child.inside =
      .ok (child, after)) :
    addItems reader ⟨head, children⟩ ⟨nextSet, nextRule⟩ child.describe.items =
      .ok (⟨head, children ++ [child]⟩, after) := by
  have hnumber : UInt32.ofNat nextSet = child.head.id := hid ▸ UInt32.ofNat_toNat
  have hnode : addItem reader ⟨head, children⟩ ⟨nextSet, nextRule⟩
      (.node child.head.kind child.head.description child.head.severity child.inside) =
        .ok (⟨head, children ++ [child]⟩, after) := by
    rw [addItem]
    simp only [RuleSet.id, hnumber, ← hp]
    rw [Head.bare] at hin
    rw [hin]
    rfl
  rw [describe_items hk hs, addItems, hnode]
  exact addItems_nil reader ⟨head, children ++ [child]⟩ after

theorem Head.addRules_fixed (head : Head) (rules : List Rule) :
    (head.addRules rules).id = head.id ∧ (head.addRules rules).combinator = head.combinator := by
  rw [addRules_eq]
  exact ⟨rfl, rfl⟩

/-- The rules in front of a child are added again. What has been made then says how the conditions
are joined if rules were written, and has all rules when those behind the child are added. -/
theorem addItems_front {reader : RuleReader} {head : Head} (made : List RuleSet) (nextSet : Nat)
    {nextRule : Nat} {combinator : Combinator} {written : Bool} {front : List Rule}
    (hreadable : ∀ rule ∈ front, rule.Readable reader)
    (hn : numbers front = List.range' nextRule front.length)
    (hc : head.combinator = (if written then combinator else .and)) :
    ∃ next : Head, next.id = head.id ∧
      next.combinator =
        (if written || !(front.map Rule.describe).isEmpty then combinator else .and) ∧
      (∀ rest, (next.joined combinator).addRules rest =
        (head.joined combinator).addRules (front ++ rest)) ∧
      addItems reader ⟨head, made⟩ ⟨nextSet, nextRule⟩
          (if (front.map Rule.describe).isEmpty then []
            else RuleSetDescription.criteriaItems combinator (front.map Rule.describe)) =
        .ok (⟨next, made⟩, ⟨nextSet, nextRule + front.length⟩) := by
  cases front with
  | nil =>
    refine ⟨head, rfl, ?_, fun rest => rfl, addItems_nil reader ⟨head, made⟩ _⟩
    rw [hc, List.map_nil, List.isEmpty_nil, Bool.not_true, Bool.or_false]
  | cons rule more =>
    have hfixed := Head.addRules_fixed (head.joined combinator) (rule :: more)
    refine ⟨(head.joined combinator).addRules (rule :: more), hfixed.1, ?_, fun rest => ?_, ?_⟩
    · rw [hfixed.2, List.map_cons, List.isEmpty_cons, Bool.not_false, Bool.or_true, if_pos rfl]
      rfl
    · have hjoined : ((head.joined combinator).addRules (rule :: more)).combinator = combinator :=
        hfixed.2
      rw [Head.addRules_append, Head.joined_eq_self hjoined]
    · rw [List.map_cons, List.isEmpty_cons, if_neg Bool.false_ne_true, ← List.map_cons]
      exact addItems_criteriaItems combinator hreadable hn

/-- The rules behind the last child are added again. -/
theorem addItems_last {reader : RuleReader} {head : Head} (made : List RuleSet) (nextSet : Nat)
    {nextRule : Nat} {combinator : Combinator} {written : Bool} {pending : List Rule}
    (hreadable : ∀ rule ∈ pending, rule.Readable reader)
    (hn : numbers pending = List.range' nextRule pending.length)
    (hc : head.combinator = (if written then combinator else .and)) :
    addItems reader ⟨head, made⟩ ⟨nextSet, nextRule⟩
        (RuleSetDescription.bodyItems combinator (pending.map Rule.describe) written []) =
      .ok (⟨(head.joined combinator).addRules pending, made⟩,
        ⟨nextSet, nextRule + pending.length⟩) := by
  rw [RuleSetDescription.bodyItems]
  by_cases hw : (!(pending.map Rule.describe).isEmpty || (!written && combinator != .and)) = true
  · rw [if_pos hw, addItems_criteriaItems combinator hreadable hn]
  · rw [Bool.not_eq_true, Bool.or_eq_false_iff] at hw
    have hnone : pending = [] := by simpa using hw.1
    have hjoined : head.combinator = combinator := by
      cases written with
      | true => exact hc
      | false =>
        have hand : combinator = .and := by simpa using hw.2
        rw [hand]
        exact hc
    rw [hw.1, hw.2, hnone, Head.joined_eq_self hjoined]
    exact addItems_nil reader ⟨head, made⟩ ⟨nextSet, nextRule⟩

mutual
/-- What stands in the element of a rule set makes the rule set again. -/
theorem addItems_inside {reader : RuleReader} : (set : RuleSet) →
    (∀ node ∈ set.preorder, node.Sound reader ∧ node.head.KeepsNames) →
    ∀ {firstSet firstRule : Nat}, set.Numbered firstSet firstRule →
    addItems reader ⟨set.head.bare, []⟩ ⟨firstSet + 1, firstRule⟩ set.inside =
      .ok (set, ⟨firstSet + set.preorder.length, firstRule + set.allRules.length⟩)
  | ⟨head, children⟩, h, firstSet, firstRule, hn => by
    obtain ⟨⟨hsound, hkeeps⟩, hbelow⟩ := List.forall_mem_cons.mp h
    obtain ⟨-, rules, he, ha, hall⟩ := hn
    have hperm := Head.rules_perm he ha
    have hmessage : head.failureMessage.map Text.trimmed = head.failureMessage :=
      Text.map_trimmed_eq_self_iff.mpr hkeeps.1
    have hname : head.customId.map Text.trimmed = head.customId :=
      Text.map_trimmed_eq_self_iff.mpr hkeeps.2
    have hnames := addItems_failureItems reader head.bare head ⟨firstSet + 1, firstRule⟩ rfl rfl rfl
      fun hk => (hsound.names hk).2
    rw [hmessage, hname] at hnames
    have hbody := addItems_body children hbelow hsound.kinds
      (fun rule hr => hsound.rules rule (hperm.mem_iff.mpr hr)) hall
      head.named [] rfl head.combinator false rfl
    have hhead : (head.named.joined head.combinator).addRules rules = head := by
      rw [Head.addRules_eq]
      simp only [Head.named, Head.bare, Head.joined, List.nil_append, ← he, ← ha]
    have hsets : firstSet + 1 + (preorderAll children).length =
        firstSet + (preorder ⟨head, children⟩).length := by
      rw [preorder, List.length_cons]
      omega
    have hrules : rules.length + (allRulesAll children).length =
        (allRules ⟨head, children⟩).length := by
      rw [allRules_mk, List.length_append, hperm.length_eq]
    rw [hhead, hsets, hrules, List.nil_append] at hbody
    rw [inside, addItems_behind hnames, hall.sortedRules he ha]
    exact hbody

/-- Rules and the rule sets between them are added again: the least number of a rule in a child
parts the rules of its parent exactly where the child stood. -/
theorem addItems_body {reader : RuleReader} : (children : List RuleSet) →
    (∀ node ∈ preorderAll children, node.Sound reader ∧ node.head.KeepsNames) →
    (∀ child ∈ children, child.head.kind ≠ .root) →
    ∀ {parent : UInt32} {pending : List Rule} {firstSet firstRule : Nat},
    (∀ rule ∈ pending, rule.Readable reader) →
    NumberedAll parent pending children firstSet firstRule →
    ∀ (head : Head) (made : List RuleSet), head.id = parent →
    ∀ (combinator : Combinator) (written : Bool),
    head.combinator = (if written then combinator else .and) →
    addItems reader ⟨head, made⟩ ⟨firstSet, firstRule⟩
        (RuleSetDescription.bodyItems combinator (pending.map Rule.describe) written
          (describeAll children)) =
      .ok (⟨(head.joined combinator).addRules pending, made ++ children⟩,
        ⟨firstSet + (preorderAll children).length,
          firstRule + (pending.length + (allRulesAll children).length)⟩)
  | [], _, _, parent, pending, firstSet, firstRule, hreadable, hall, head, made, hid, combinator,
      written, hcombinator => by
    rw [describeAll, List.append_nil]
    exact addItems_last made firstSet hreadable hall hcombinator
  | child :: more, h, hkinds, parent, pending, firstSet, firstRule, hreadable, hall, head, made,
      hid, combinator, written, hcombinator => by
    obtain ⟨hchild, hmore⟩ := List.forall_mem_append.mp h
    obtain ⟨front, rest, rfl, hfront, hparent, hnone, hnumbered, hlater⟩ := hall
    rw [describeAll, RuleSetDescription.bodyItems,
      NumberedAll.splitRules hfront hnone hnumbered hlater]
    dsimp only
    obtain ⟨hreadfront, hreadrest⟩ := List.forall_mem_append.mp hreadable
    obtain ⟨next, hnext, hjoined, hall, hadd⟩ :=
      addItems_front made firstSet hreadfront hfront hcombinator
    obtain ⟨hkind, hothers⟩ := List.forall_mem_cons.mp hkinds
    obtain ⟨hsound, -⟩ := hchild child child.mem_preorder_self
    have hbelow := addItems_child next made hkind (fun hk => (hsound.names hk).1)
      (hparent.trans (congrArg some (hid ▸ hnext.symm))) hnumbered.id_eq
      (addItems_inside child hchild hnumbered)
    have hlast := addItems_body more hmore hothers hreadrest hlater next (made ++ [child])
      (hnext.trans hid) combinator _ hjoined
    have hsets : firstSet + child.preorder.length + (preorderAll more).length =
        firstSet + (preorderAll (child :: more)).length := by
      rw [preorderAll, List.length_append]
      omega
    have hrules : firstRule + front.length + child.allRules.length +
          (rest.length + (allRulesAll more).length) =
        firstRule + ((front ++ rest).length + (allRulesAll (child :: more)).length) := by
      rw [allRulesAll_cons, List.length_append, List.length_append]
      omega
    rw [addItems_behind hadd, addItems_behind hbelow, hlast, hall, hsets, hrules, List.append_assoc]
    rfl
end

mutual
/-- The number of rule sets on the longest way down a tree. -/
def levels : RuleSet → Nat
  | ⟨_, children⟩ => levelsAll children + 1

/-- The number of rule sets on the longest way down one of some trees. -/
def levelsAll : List RuleSet → Nat
  | [] => 0
  | set :: more => max set.levels (levelsAll more)
end

mutual
/-- The elements of a written tree are nested at most two deeper than its rule sets. -/
theorem nesting_describe_le : (set : RuleSet) → set.describe.nesting ≤ set.levels + 2
  | ⟨head, children⟩ => by
    have hbelow := nestingAll_describeAll_le children
    have hown : head.describe.nesting ≤ 2 := by
      unfold RuleSetDescription.Head.nesting
      split
      · exact le_rfl
      · split <;> omega
    rw [describe, RuleSetDescription.nesting, levels]
    omega

/-- The elements of written trees are nested at most two deeper than their rule sets. -/
theorem nestingAll_describeAll_le : (sets : List RuleSet) →
    RuleSetDescription.nestingAll (describeAll sets) ≤ levelsAll sets + 2
  | [] => Nat.zero_le _
  | set :: more => by
    have hset := nesting_describe_le set
    have hmore := nestingAll_describeAll_le more
    rw [describeAll, RuleSetDescription.nestingAll, levelsAll]
    omega
end

end RuleSet

namespace Compiler

variable {compiler next : Compiler} {markup : String} {tree : RuleTree}

/-- The root of a compiled tree is for the same as the empty root. -/
theorem bare_of_compileRoot {root : RuleSet} (h : compiler.compileRoot markup = .ok root) :
    root.head.bare = RuleSet.root.head ∧ root.head.kind = .root := by
  obtain ⟨_, -, hgrows⟩ := compileRoot_grows h
  obtain ⟨hid, hparent, hkind, hdescription, hseverity⟩ := hgrows.head_eq
  rw [RuleSet.Head.bare, hid, hparent, hkind, hdescription, hseverity]
  exact ⟨rfl, rfl⟩

/-- What the root of a compiled tree is written as makes the root again. -/
theorem ofOutline_items {root : RuleSet} (h : compiler.compileRoot markup = .ok root)
    (hm : Markup.elementCount markup < UInt32.size - 2)
    (hk : ∀ set ∈ root.preorder, set.head.KeepsNames) :
    RuleSet.ofOutline compiler.reader root.describe.items = .ok root := by
  obtain ⟨hbare, hkind⟩ := bare_of_compileRoot h
  have hsound := sound_of_compileRoot h
  have hinside := RuleSet.addItems_inside root (fun set hs => ⟨hsound set hs, hk set hs⟩)
    (numbered_of_compileRoot h hm)
  rw [hbare] at hinside
  rw [RuleSet.ofOutline, RuleSet.describe_items_root hkind]
  exact congrArg (fun added => added >>= fun result => pure result.1) hinside

/-- A tree compiled from a document with fewer than `UInt32.size - 2` elements is written as a
document that the same compiler compiles to the same root, and that is written as the same text, if
the limit leaves room for two elements below the rule sets and no message or name of a failure
begins or ends with a blank. -/
theorem compile_roundTrip (h : compiler.compile markup = .ok (tree, next))
    (hm : Markup.elementCount markup < UInt32.size - 2)
    (hd : tree.root.levels + 2 ≤ compiler.maxDepth)
    (hk : ∀ set ∈ tree.all, set.head.KeepsNames) :
    ∃ again later, next.compile tree.describe.markup = .ok (again, later) ∧
      again.root = tree.root ∧ again.describe.markup = tree.describe.markup := by
  obtain ⟨hroot, -, hnext⟩ := compile_cases h
  have hsound := sound_of_compileRoot hroot
  have hplain := RuleSet.plain_describe tree.root hsound
  rw [all_of_compile h] at hk
  have hfits : tree.root.describe.nesting ≤ next.maxDepth := by
    rw [hnext]
    exact (RuleSet.nesting_describe_le tree.root).trans hd
  have hreader : next.reader = compiler.reader := by rw [hnext]
  have hagain : next.compileRoot tree.describe.markup = .ok tree.root := by
    refine (compileRoot_document hplain hfits).trans ?_
    rw [hreader]
    exact ofOutline_items hroot hm hk
  exact ⟨_, _, compile_of_compileRoot hagain, rfl, rfl⟩

/-- A document with a rule and a message is compiled to a tree that comes back from its written
form. -/
theorem compile_roundTrip_small :
    Markup.elementCount smallMarkup < UInt32.size - 2 ∧ ∃ tree next again later,
      (small 5).compile smallMarkup = .ok (tree, next) ∧ tree.root.levels + 2 ≤ 5 ∧
      (∀ set ∈ tree.all, set.head.KeepsNames) ∧
      next.compile tree.describe.markup = .ok (again, later) ∧
      again.root = tree.root ∧ again.describe.markup = tree.describe.markup := by
  have hm : Markup.elementCount smallMarkup < UInt32.size - 2 := by decide +kernel
  obtain ⟨tree, next, hc, hf⟩ : ∃ tree next, (small 5).compile smallMarkup = .ok (tree, next) ∧
      (tree.root.levels, tree.all.all fun set => decide set.head.KeepsNames) = (3, true) :=
    exists_compile (fun tree =>
      (tree.root.levels, tree.all.all fun set => decide set.head.KeepsNames)) (3, true)
      (by decide +kernel)
  obtain ⟨hlevels, hkeeps⟩ := Prod.mk.inj hf
  have hd : tree.root.levels + 2 ≤ (small 5).maxDepth := by
    rw [hlevels]
    decide
  have hk : ∀ set ∈ tree.all, set.head.KeepsNames := fun set hs =>
    of_decide_eq_true (List.all_eq_true.mp hkeeps set hs)
  obtain ⟨again, later, hagain⟩ := compile_roundTrip hc hm hd hk
  exact ⟨hm, tree, next, again, later, hc, hd, hk, hagain⟩

end Compiler

end Rulebook
