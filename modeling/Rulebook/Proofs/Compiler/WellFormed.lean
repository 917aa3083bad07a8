import Mathlib.Data.List.Nodup
import Mathlib.Data.List.Pairwise
import Rulebook.Proofs.Compiler.Order

/-!
# Compiled trees are well formed

A compiled tree numbers its rule sets and its rules from one on without gaps. The numbers tell where
in the document a rule stands: lists of rules ascend, children ascend, and no rule of a rule set
stands between rules of a child. This holds for every document with fewer than `UInt32.size - 2`
elements; with more of them the numbers no longer fit into 32 bits.
-/

namespace Rulebook

/-- What holds of the numbers in a rule set and below it. -/
structure RuleSet.Ordered (set : RuleSet) : Prop where
  /-- Conditions ascend. -/
  evaluative_ascending : set.head.evaluative.Pairwise fun a b => a.id < b.id
  /-- The other rules ascend. -/
  assertive_ascending : set.head.assertive.Pairwise fun a b => a.id < b.id
  /-- Conditions only read. -/
  evaluative_passive : ∀ rule ∈ set.head.evaluative, rule.isPassive = true
  /-- The other rules do not only read. -/
  assertive_active : ∀ rule ∈ set.head.assertive, rule.isPassive = false
  /-- The children know the number of the rule set. -/
  parents : ∀ child ∈ set.children, child.head.parent = some set.id
  /-- All rules in an earlier child are in front of all rules in a later one. -/
  children_apart : set.children.Pairwise fun earlier later =>
    ∀ rule ∈ earlier.allRules, ∀ other ∈ later.allRules, rule.id < other.id
  /-- A rule of the rule set is in front of all rules in a child or behind all of them. -/
  rules_around : ∀ rule ∈ set.head.rules, ∀ child ∈ set.children,
    (∀ other ∈ child.allRules, rule.id < other.id) ∨
      (∀ other ∈ child.allRules, other.id < rule.id)

/-- What holds of the rule sets and rules of a compiled tree. -/
structure RuleTree.WellFormed (tree : RuleTree) : Prop where
  /-- The tree lists the rule sets below its root in preorder. -/
  all_eq : tree.all = tree.root.preorder
  /-- The root has the number one. -/
  root_id : tree.root.id = 1
  /-- The root has no rule set above. -/
  root_parent : tree.root.head.parent = none
  /-- The root has no severity. -/
  root_severity : tree.root.head.severity = none
  /-- The rule sets have the numbers from one on, in preorder. -/
  ids : tree.all.map (fun set => set.id.toNat) = List.range' 1 tree.all.length
  /-- The rules have the numbers from one on, each number once. -/
  rule_ids : ((tree.all.flatMap fun set => set.head.rules).map fun rule => rule.id.toNat).Perm
    (List.range' 1 (tree.all.flatMap fun set => set.head.rules).length)
  /-- In each rule set the numbers tell the order of the document. -/
  ordered : ∀ set ∈ tree.all, set.Ordered
  /-- Only checks have a severity, a message or a name of failures. -/
  checks : ∀ set ∈ tree.all, set.head.kind ≠ .validate →
    set.head.severity = none ∧ set.head.failureMessage = none ∧ set.head.customId = none

namespace RuleTree.WellFormed

variable {tree : RuleTree}

/-- The numbers of the rule sets ascend in preorder. -/
theorem ids_ascending (h : tree.WellFormed) :
    (tree.all.map RuleSet.id).Pairwise fun earlier later => earlier < later := by
  have hp : (tree.all.map fun set => set.id.toNat).Pairwise (· < ·) := by
    rw [h.ids]
    exact List.pairwise_lt_range'
  rw [List.pairwise_map] at hp ⊢
  exact hp.imp fun hlt => UInt32.lt_iff_toNat_lt.mpr hlt

/-- No two rule sets have the same number. -/
theorem ids_nodup (h : tree.WellFormed) : (tree.all.map RuleSet.id).Nodup :=
  h.ids_ascending.imp fun hlt => UInt32.ne_of_lt hlt

/-- No two rules have the same number. -/
theorem rule_ids_nodup (h : tree.WellFormed) :
    ((tree.all.flatMap fun set => set.head.rules).map Rule.id).Nodup := by
  have hn : ((tree.all.flatMap fun set => set.head.rules).map fun rule => rule.id.toNat).Nodup :=
    h.rule_ids.nodup_iff.mpr (List.nodup_range' 1)
  refine List.Nodup.of_map UInt32.toNat ?_
  rw [List.map_map]
  exact hn

/-- A rule is the one with its number, and it is in one rule set only. -/
theorem rule_eq (h : tree.WellFormed) {set other : RuleSet} (hs : set ∈ tree.all)
    (ho : other ∈ tree.all) {rule same : Rule} (hr : rule ∈ set.head.rules)
    (hr' : same ∈ other.head.rules) (he : rule.id = same.id) : set = other ∧ rule = same := by
  have hflat : (tree.all.flatMap fun set => set.head.rules.map Rule.id).Nodup := by
    rw [← List.map_flatMap]
    exact h.rule_ids_nodup
  obtain ⟨-, hapart⟩ := List.nodup_flatMap.mp hflat
  have hsymm : Std.Symm (Function.onFun List.Disjoint
      fun set : RuleSet => set.head.rules.map Rule.id) := ⟨fun _ _ hd _ ha hb => hd hb ha⟩
  constructor
  · by_contra hne
    refine hapart.forall hs ho hne (List.mem_map_of_mem hr) ?_
    rw [he]
    exact List.mem_map_of_mem hr'
  · exact List.inj_on_of_nodup_map h.rule_ids_nodup (List.mem_flatMap.mpr ⟨set, hs, hr⟩)
      (List.mem_flatMap.mpr ⟨other, ho, hr'⟩) he

end RuleTree.WellFormed

/-- In a numbered tree the numbers tell the order of the document. -/
theorem RuleSet.Numbered.ordered {set : RuleSet} {firstSet firstRule : Nat}
    (h : set.Numbered firstSet firstRule) : set.Ordered := by
  obtain ⟨head, children⟩ := set
  obtain ⟨-, rules, he, ha, hall⟩ := h
  have hascending := hall.ascending
  refine ⟨?_, ?_, ?_, ?_, fun child hc => hall.parent_eq hc, hall.apart, ?_⟩
  · rw [he]
    exact hascending.filter _
  · rw [ha]
    exact hascending.filter _
  · intro rule hr
    rw [he] at hr
    exact List.of_mem_filter hr
  · intro rule hr
    rw [ha] at hr
    have hnot := List.of_mem_filter hr
    simpa using hnot
  · intro rule hr child hc
    exact hall.around ((Head.rules_perm he ha).mem_iff.mp hr) hc

namespace Compiler

variable {compiler next : Compiler} {markup : String} {tree : RuleTree}

/-- A compiled tree lists the rule sets below its root in preorder. -/
theorem all_of_compile (h : compiler.compile markup = .ok (tree, next)) :
    tree.all = tree.root.preorder := by
  obtain ⟨-, htree, -⟩ := compile_cases h
  rw [htree]
  exact RuleTree.all_ofRoot _ _ _

/-- The tree of a root that is compiled from a document with fewer than `UInt32.size - 2` elements
is well formed. -/
theorem wellFormed_ofRoot {root : RuleSet} (h : compiler.compileRoot markup = .ok root)
    (hm : Markup.elementCount markup < UInt32.size - 2) (registry : Registry) (version : UInt64) :
    (RuleTree.ofRoot root registry version).WellFormed := by
  obtain ⟨_, -, hgrows⟩ := compileRoot_grows h
  obtain ⟨hid, hparent, -, -, hseverity⟩ := hgrows.head_eq
  have hsound := sound_of_compileRoot h
  have hnumbered := numbered_of_compileRoot h hm
  have hall : (RuleTree.ofRoot root registry version).all = root.preorder :=
    RuleTree.all_ofRoot root registry version
  refine ⟨hall, hid, hparent, hseverity, ?_, ?_, ?_, ?_⟩
  all_goals rw [hall]
  · exact hnumbered.ids
  · exact hnumbered.perm
  · intro set hs
    obtain ⟨_, _, hset⟩ := hnumbered.node set hs
    exact hset.ordered
  · exact fun set hs => (hsound set hs).names

/-- Every tree that is compiled from a document with fewer than `UInt32.size - 2` elements is well
formed. -/
theorem wellFormed_of_compile (h : compiler.compile markup = .ok (tree, next))
    (hm : Markup.elementCount markup < UInt32.size - 2) : tree.WellFormed := by
  obtain ⟨hroot, htree, -⟩ := compile_cases h
  rw [htree]
  exact wellFormed_ofRoot hroot hm compiler.registry (compiler.version + 1)

/-- A text from which something is computed by way of its tree is compiled to such a tree. -/
theorem exists_compile {α : Type} (f : RuleTree → α) (value : α)
    (h : (compiler.compile markup).toOption.map (fun made => f made.1) = some value) :
    ∃ tree next, compiler.compile markup = .ok (tree, next) ∧ f tree = value := by
  cases hc : compiler.compile markup with
  | error refusal =>
    rw [hc] at h
    cases h
  | ok made =>
    rw [hc] at h
    cases h
    exact ⟨made.1, made.2, rfl, rfl⟩

/-- A compiler for a catalog of one attribute. -/
def small (maxDepth : Nat) : Compiler :=
  { reader := { catalog := Catalog.empty.insert ⟨1, 1, "Owner"⟩ }, maxDepth }

/-- A branch with a condition and a check; no element stands around them. -/
def smallMarkup : String :=
  "<if><eval>(N.Owner) POPULATED</eval><validate err=\"severe\">" ++
    "<failure_message>No owner</failure_message></validate></if>"

/-- A document of four elements is compiled to a well-formed tree of three rule sets and a rule. -/
theorem wellFormed_small :
    Markup.elementCount smallMarkup < UInt32.size - 2 ∧ ∃ tree next,
      (small 3).compile smallMarkup = .ok (tree, next) ∧
      (tree.root.preorder.length, tree.root.allRules.length) = (3, 1) ∧ tree.WellFormed := by
  have hm : Markup.elementCount smallMarkup < UInt32.size - 2 := by decide +kernel
  obtain ⟨tree, next, hc, hn⟩ : ∃ tree next, (small 3).compile smallMarkup = .ok (tree, next) ∧
      (tree.root.preorder.length, tree.root.allRules.length) = (3, 1) :=
    exists_compile (fun tree => (tree.root.preorder.length, tree.root.allRules.length)) (3, 1)
      (by decide +kernel)
  exact ⟨hm, tree, next, hc, hn, wellFormed_of_compile hc hm⟩

end Compiler

end Rulebook
