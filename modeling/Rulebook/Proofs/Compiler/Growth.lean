import Rulebook.Compiler
import Rulebook.Proofs.Compiler.Items

/-!
# How rule sets grow

A rule set is made by adding one thing after the other: a rule with the next number, the way in
which conditions are joined, a message or a name where something is checked, or a rule set below
that was made in the same way. `Grows` has one case for each of them, and every fact about compiled
trees is an induction over it. Numbers only rise, and a document raises them by no more than its
elements.
-/

namespace Rulebook

open OutlineItem (sizeAll ProperText Proper ProperAll)

namespace RuleSet

/-- A rule set becomes another one when things are added that documents can say. -/
inductive Grows (reader : RuleReader) : RuleSet → Numbering → RuleSet → Numbering → Prop where
  /-- Nothing is added. -/
  | done (set : RuleSet) (numbering : Numbering) : Grows reader set numbering set numbering
  /-- A rule with the next number is added. -/
  | rule {head : Head} {children : List RuleSet} {numbering after : Numbering} {last : RuleSet}
    {label : Option String} {text : String} {rule : Rule} (hne : text ≠ "") (ht : ProperText text)
    (hread : reader.read text (UInt32.ofNat numbering.nextRule) label = .ok rule)
    (more : Grows reader ⟨head.addRule rule, children⟩
      ⟨numbering.nextSet, numbering.nextRule + 1⟩ last after) :
    Grows reader ⟨head, children⟩ numbering last after
  /-- The conditions are joined in some way. -/
  | join {head : Head} {children : List RuleSet} {numbering after : Numbering} {last : RuleSet}
    (combinator : Combinator)
    (more : Grows reader ⟨{ head with combinator }, children⟩ numbering last after) :
    Grows reader ⟨head, children⟩ numbering last after
  /-- The message or the name of a failure is added where something is checked. -/
  | name {head : Head} {children : List RuleSet} {numbering after : Numbering} {last : RuleSet}
    (failureMessage customId : Option String) (hk : head.kind = .validate)
    (more : Grows reader ⟨{ head with failureMessage, customId }, children⟩ numbering last after) :
    Grows reader ⟨head, children⟩ numbering last after
  /-- A rule set that was made in the same way is added below. -/
  | node {head : Head} {children : List RuleSet} {numbering between after : Numbering}
    {child last : RuleSet} (kind : NodeKind) (description : String) (severity : Option Severity)
    (hk : kind ≠ .root) (hs : severity ≠ none → kind = .validate)
    (inside : Grows reader
      ⟨{ id := UInt32.ofNat numbering.nextSet, parent := some head.id, kind, description,
          severity }, []⟩ ⟨numbering.nextSet + 1, numbering.nextRule⟩ child between)
    (more : Grows reader ⟨head, children ++ [child]⟩ between last after) :
    Grows reader ⟨head, children⟩ numbering last after

/-- The numbers given out before a list of items are raised by no more than the items say. -/
def Raises (before after : Numbering) (count : Nat) : Prop :=
  after.nextSet + after.nextRule ≤ before.nextSet + before.nextRule + count

/-- A rule is added when its text is not empty and it is read. -/
theorem addItem_rule {reader : RuleReader} {head : Head} {children : List RuleSet}
    {numbering after : Numbering} {label : Option String} {text : String} {next : RuleSet}
    (h : addItem reader ⟨head, children⟩ numbering (.rule label text) = .ok (next, after)) :
    text ≠ "" ∧ ∃ rule, reader.read text (UInt32.ofNat numbering.nextRule) label = .ok rule ∧
      next = ⟨head.addRule rule, children⟩ ∧
      after = ⟨numbering.nextSet, numbering.nextRule + 1⟩ := by
  rw [addItem, Head.readRule] at h
  by_cases ht : text = ""
  · rw [if_pos ht] at h
    cases h
  · rw [if_neg ht] at h
    refine ⟨ht, ?_⟩
    cases hr : reader.read text (UInt32.ofNat numbering.nextRule) label with
    | error refusal =>
      rw [hr] at h
      cases h
    | ok rule =>
      rw [hr] at h
      cases h
      exact ⟨rule, rfl, rfl, rfl⟩

/-- A rule set below is added when what it holds can be added. -/
theorem addItem_node {reader : RuleReader} {head : Head} {children : List RuleSet}
    {numbering after : Numbering} {kind : NodeKind} {description : String}
    {severity : Option Severity} {items : List OutlineItem} {next : RuleSet}
    (h : addItem reader ⟨head, children⟩ numbering (.node kind description severity items) =
      .ok (next, after)) :
    ∃ child, addItems reader
        ⟨{ id := UInt32.ofNat numbering.nextSet, parent := some head.id, kind, description,
            severity }, []⟩
        ⟨numbering.nextSet + 1, numbering.nextRule⟩ items = .ok (child, after) ∧
      next = ⟨head, children ++ [child]⟩ := by
  rw [addItem] at h
  simp only [RuleSet.id] at h
  generalize ha : addItems reader _ _ items = added at h ⊢
  cases added with
  | error refusal => cases h
  | ok result =>
    cases h
    exact ⟨result.1, rfl, rfl⟩

@[simp] theorem addItems_nil (reader : RuleReader) (set : RuleSet) (numbering : Numbering) :
    addItems reader set numbering [] = .ok (set, numbering) := by
  rw [addItems]
  rfl

/-- Items in two lists are added one list after the other. -/
theorem addItems_append (reader : RuleReader) (set : RuleSet) (numbering : Numbering)
    (left right : List OutlineItem) :
    addItems reader set numbering (left ++ right) =
      addItems reader set numbering left >>= fun next => addItems reader next.1 next.2 right := by
  induction left generalizing set numbering with
  | nil =>
    rw [addItems_nil]
    rfl
  | cons item more ih =>
    rw [List.cons_append, addItems, addItems, bind_assoc]
    exact bind_congr fun next => ih next.1 next.2

/-- Items are added one after the other. -/
theorem addItems_cons {reader : RuleReader} {set last : RuleSet} {numbering after : Numbering}
    {item : OutlineItem} {more : List OutlineItem}
    (h : addItems reader set numbering (item :: more) = .ok (last, after)) :
    ∃ next between, addItem reader set numbering item = .ok (next, between) ∧
      addItems reader next between more = .ok (last, after) := by
  rw [addItems] at h
  cases ha : addItem reader set numbering item with
  | error refusal =>
    rw [ha] at h
    cases h
  | ok result =>
    rw [ha] at h
    exact ⟨result.1, result.2, rfl, h⟩

/-- Items in two lists are added when those of the first one are and then those of the other. -/
theorem addItems_of_append {reader : RuleReader} {set last : RuleSet} {numbering after : Numbering}
    {left right : List OutlineItem}
    (h : addItems reader set numbering (left ++ right) = .ok (last, after)) :
    ∃ next between, addItems reader set numbering left = .ok (next, between) ∧
      addItems reader next between right = .ok (last, after) := by
  rw [addItems_append] at h
  cases ha : addItems reader set numbering left with
  | error refusal =>
    rw [ha] at h
    cases h
  | ok result =>
    rw [ha] at h
    exact ⟨result.1, result.2, rfl, h⟩

mutual
/-- Adding an item lets a rule set grow, whatever is added to it later. A child is whole before it
is put below, so that all of its growth is one premise. -/
theorem addItem_grows {reader : RuleReader} : (item : OutlineItem) → item.Proper →
    ∀ {set next : RuleSet} {numbering between : Numbering},
      addItem reader set numbering item = .ok (next, between) →
      Raises numbering between item.size ∧ ∀ {last : RuleSet} {after : Numbering},
        Grows reader next between last after → Grows reader set numbering last after
  | .rule label text, hp, ⟨head, children⟩, next, numbering, between, h => by
    obtain ⟨hne, rule, hread, rfl, rfl⟩ := addItem_rule h
    refine ⟨?_, fun more => .rule hne hp hread more⟩
    simp only [Raises, OutlineItem.size]
    omega
  | .join combinator, hp, ⟨head, children⟩, next, numbering, between, h => by
    rw [addItem] at h
    cases h
    exact ⟨Nat.le_add_right _ _, fun more => .join combinator more⟩
  | .failureMessage text, hp, ⟨head, children⟩, next, numbering, between, h => by
    rw [addItem] at h
    by_cases hk : head.isValidate = true
    · rw [if_pos hk] at h
      cases h
      exact ⟨Nat.le_add_right _ _, fun more =>
        .name (some text) head.customId (eq_of_beq hk) more⟩
    · rw [if_neg hk] at h
      cases h
      exact ⟨Nat.le_add_right _ _, fun more => more⟩
  | .customId text, hp, ⟨head, children⟩, next, numbering, between, h => by
    rw [addItem] at h
    by_cases hk : head.isValidate = true
    · rw [if_pos hk] at h
      cases h
      exact ⟨Nat.le_add_right _ _, fun more =>
        .name head.failureMessage (some text) (eq_of_beq hk) more⟩
    · rw [if_neg hk] at h
      cases h
      exact ⟨Nat.le_add_right _ _, fun more => more⟩
  | .node kind description severity items, hp, ⟨head, children⟩, next, numbering, between, h => by
    obtain ⟨hk, hs, hitems⟩ := hp
    obtain ⟨child, hchild, rfl⟩ := addItem_node h
    obtain ⟨hraises, hgrows⟩ := addItems_grows items hitems hchild
    refine ⟨?_, fun more => .node kind description severity hk hs hgrows more⟩
    simp only [Raises, OutlineItem.size] at hraises ⊢
    omega

/-- Adding items lets a rule set grow and raises the numbers by no more than the items say. -/
theorem addItems_grows {reader : RuleReader} : (items : List OutlineItem) → ProperAll items →
    ∀ {set last : RuleSet} {numbering after : Numbering},
      addItems reader set numbering items = .ok (last, after) →
      Raises numbering after (sizeAll items) ∧ Grows reader set numbering last after
  | [], _, set, last, numbering, after, h => by
    rw [addItems_nil] at h
    cases h
    exact ⟨Nat.le_add_right _ _, .done set numbering⟩
  | item :: more, hp, set, last, numbering, after, h => by
    obtain ⟨next, between, hitem, hmore⟩ := addItems_cons h
    obtain ⟨hfirst, hgrows⟩ := addItem_grows item hp.1 hitem
    obtain ⟨hlater, hlast⟩ := addItems_grows more hp.2 hmore
    refine ⟨?_, hgrows hlast⟩
    simp only [Raises, OutlineItem.sizeAll] at hfirst hlater ⊢
    omega
end

namespace Grows

variable {reader : RuleReader} {set last : RuleSet} {numbering after : Numbering}

/-- Numbers are not given again. -/
theorem mono (h : Grows reader set numbering last after) :
    numbering.nextSet ≤ after.nextSet ∧ numbering.nextRule ≤ after.nextRule := by
  induction h with
  | done => exact ⟨le_rfl, le_rfl⟩
  | rule _ _ _ _ ih => exact ⟨ih.1, Nat.le_of_succ_le ih.2⟩
  | join _ _ ih => exact ih
  | name _ _ _ _ ih => exact ih
  | node _ _ _ _ _ _ _ ihinside ihmore =>
    exact ⟨Nat.le_of_succ_le (ihinside.1.trans ihmore.1), ihinside.2.trans ihmore.2⟩

/-- What a rule set is for and where it stands does not change. -/
theorem head_eq (h : Grows reader set numbering last after) :
    last.head.id = set.head.id ∧ last.head.parent = set.head.parent ∧
      last.head.kind = set.head.kind ∧ last.head.description = set.head.description ∧
      last.head.severity = set.head.severity := by
  induction h with
  | done => exact ⟨rfl, rfl, rfl, rfl, rfl⟩
  | @rule head _ _ _ _ _ _ rule _ _ _ _ ih =>
    have hadd : (head.addRule rule).id = head.id ∧ (head.addRule rule).parent = head.parent ∧
        (head.addRule rule).kind = head.kind ∧
        (head.addRule rule).description = head.description ∧
        (head.addRule rule).severity = head.severity := by
      unfold Head.addRule
      split <;> exact ⟨rfl, rfl, rfl, rfl, rfl⟩
    simp only [hadd] at ih
    exact ih
  | join _ _ ih => exact ih
  | name _ _ _ _ ih => exact ih
  | node _ _ _ _ _ _ _ _ ihmore => exact ihmore

end Grows

end RuleSet

namespace Compiler

/-- A text is compiled when it is not blank, is read as a document with elements, and what they say
can be added to the empty root. -/
theorem compileRoot_cases {compiler : Compiler} {markup : String} {root : RuleSet}
    (h : compiler.compileRoot markup = .ok root) :
    ∃ document after, Markup.readDocument compiler.maxDepth markup = .ok document ∧
      RuleSet.addItems compiler.reader RuleSet.root {} (Outline.ofElements document.children) =
        .ok (root, after) := by
  rw [compileRoot] at h
  by_cases hm : Text.trimmed markup = ""
  · rw [if_pos hm] at h
    cases h
  · rw [if_neg hm] at h
    cases hd : Markup.readDocument compiler.maxDepth markup with
    | error refusal =>
      rw [hd] at h
      cases h
    | ok document =>
      rw [hd] at h
      by_cases he : document.children.isEmpty = true
      · simp only [bind, Except.bind, if_pos he] at h
        cases h
      · simp only [bind, Except.bind, if_neg he, RuleSet.ofOutline, pure, Except.pure] at h
        cases ha : RuleSet.addItems compiler.reader RuleSet.root {}
            (Outline.ofElements document.children) with
        | error refusal =>
          rw [ha] at h
          cases h
        | ok result =>
          rw [ha] at h
          cases h
          exact ⟨document, result.2, rfl, ha⟩

/-- A document that can be read is compiled when it has elements and what they say can be added to
the empty root. -/
theorem compileRoot_of_readDocument {compiler : Compiler} {markup : String}
    {document : Markup.Element} (h : Markup.readDocument compiler.maxDepth markup = .ok document) :
    compiler.compileRoot markup =
      if document.children.isEmpty then .error .emptyMarkup
      else RuleSet.ofOutline compiler.reader (Outline.ofElements document.children) := by
  rw [compileRoot]
  by_cases hblank : Text.trimmed markup = ""
  · rw [if_pos hblank, Markup.children_eq_nil_of_blank hblank h]
    rfl
  · rw [if_neg hblank, h]
    rfl

/-- The root of a compiled tree grows from the empty root, within as many numbers as the document
has elements. -/
theorem compileRoot_grows {compiler : Compiler} {markup : String} {root : RuleSet}
    (h : compiler.compileRoot markup = .ok root) :
    ∃ after, RuleSet.Raises {} after (Markup.elementCount markup) ∧
      RuleSet.Grows compiler.reader RuleSet.root {} root after := by
  obtain ⟨document, after, hread, hadd⟩ := compileRoot_cases h
  obtain ⟨hsize, hplain⟩ := Markup.readDocument_spec hread
  obtain ⟨hraises, hgrows⟩ :=
    RuleSet.addItems_grows _ (Outline.proper_ofElements document.children hplain) hadd
  have hcount := Outline.size_ofElements document.children
  refine ⟨after, ?_, hgrows⟩
  unfold RuleSet.Raises at hraises ⊢
  omega

/-- A compiled tree is the tree with the root that the document describes. -/
theorem compile_cases {compiler next : Compiler} {markup : String} {tree : RuleTree}
    (h : compiler.compile markup = .ok (tree, next)) :
    compiler.compileRoot markup = .ok tree.root ∧
      tree = .ofRoot tree.root compiler.registry (compiler.version + 1) ∧
      next = { compiler with version := compiler.version + 1 } := by
  rw [compile] at h
  cases hr : compiler.compileRoot markup with
  | error refusal =>
    rw [hr] at h
    cases h
  | ok root =>
    rw [hr] at h
    cases h
    exact ⟨rfl, rfl, rfl⟩

/-- Making a tree succeeds when the root can be made. -/
theorem compile_of_compileRoot {compiler : Compiler} {markup : String} {root : RuleSet}
    (h : compiler.compileRoot markup = .ok root) :
    compiler.compile markup = .ok
      (.ofRoot root compiler.registry (compiler.version + 1),
        { compiler with version := compiler.version + 1 }) := by
  rw [compile, h]
  rfl

end Compiler

end Rulebook
