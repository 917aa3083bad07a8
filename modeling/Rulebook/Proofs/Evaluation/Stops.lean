import Mathlib.Data.List.Nodup
import Rulebook.Proofs.Evaluation.Visiting
import Rulebook.Proofs.Compiler.Order

/-!
# Where the stops of a walk are in the tree

The stops of a walk go down the tree in preorder. Below a stop where the conditions hold the walk
stops at every child; below a stop where they do not, it stops nowhere. Each stop but the first ones
is below another stop.
-/

namespace Rulebook

namespace RuleSet

mutual
/-- What is below a rule set of a tree is below its root. -/
theorem mem_below_of_below : (root : RuleSet) → {set node : RuleSet} → set ∈ root.preorder →
    node ∈ preorderAll set.children → node ∈ preorderAll root.children
  | ⟨head, children⟩, set, node, hs, hn => by
    rcases List.mem_cons.mp hs with rfl | hs
    · exact hn
    · exact mem_preorderAll_of_below children hs hn

/-- What is below a rule set of some trees is in the trees. -/
theorem mem_preorderAll_of_below : (sets : List RuleSet) → {set node : RuleSet} →
    set ∈ preorderAll sets → node ∈ preorderAll set.children → node ∈ preorderAll sets
  | [], set, node, hs, _ => absurd hs List.not_mem_nil
  | ⟨head, children⟩ :: more, set, node, hs, hn => by
    rcases List.mem_append.mp hs with hs | hs
    · refine List.mem_append_left _ (List.mem_cons_of_mem _ ?_)
      exact mem_below_of_below ⟨head, children⟩ hs hn
    · exact List.mem_append_right _ (mem_preorderAll_of_below more hs hn)
end

/-- Where no number is used twice, the first of some trees, what is below it and the other trees
have different numbers. -/
theorem ids_apart {set : RuleSet} {more : List RuleSet}
    (hn : ((preorderAll (set :: more)).map RuleSet.id).Nodup) :
    ((preorderAll set.children).map RuleSet.id).Nodup ∧ ((preorderAll more).map RuleSet.id).Nodup ∧
    (∀ node ∈ preorderAll set.children, node.id ≠ set.id) ∧
    (∀ node ∈ preorderAll more, node.id ≠ set.id) ∧
    (∀ node ∈ preorderAll set.children, ∀ other ∈ preorderAll more, node.id ≠ other.id) := by
  obtain ⟨head, children⟩ := set
  rw [preorderAll, preorder, List.cons_append, List.map_cons, List.nodup_cons,
    List.map_append] at hn
  obtain ⟨hfirst, hrest⟩ := hn
  obtain ⟨hbelow, hmore, hapart⟩ := List.nodup_append.mp hrest
  refine ⟨hbelow, hmore, ?_, ?_, ?_⟩
  · exact fun node hm he =>
      hfirst (List.mem_append_left _ (List.mem_map.mpr ⟨node, hm, he⟩))
  · exact fun node hm he =>
      hfirst (List.mem_append_right _ (List.mem_map.mpr ⟨node, hm, he⟩))
  · exact fun node hm other ho =>
      hapart node.id (List.mem_map_of_mem hm) other.id (List.mem_map_of_mem ho)

end RuleSet

namespace Walks

open RuleSet (preorderAll)

variable {environment : Environment} {sets : List RuleSet} {records last : Records}
  {stops : List Stop}

/-- The stops are rule sets of the trees, in preorder. -/
theorem sublist (h : Walks environment sets records stops last) :
    (stops.map Stop.set).Sublist (preorderAll sets) := by
  induction h with
  | done => exact List.Sublist.refl []
  | @held set _ _ _ _ _ _ _ hh hw _ _ ihdown ihon =>
    obtain ⟨head, children⟩ := set
    rw [List.map_cons, List.map_append, preorderAll, RuleSet.preorder, List.cons_append]
    exact (ihdown.append ihon).cons_cons _
  | @skipped set _ _ _ _ hh _ ihon =>
    obtain ⟨head, children⟩ := set
    rw [List.map_cons, preorderAll, RuleSet.preorder, List.cons_append]
    exact (ihon.trans (List.sublist_append_right _ _)).cons_cons _

/-- The walk stops at each of the rule sets that it is given. -/
theorem mem_of_mem (h : Walks environment sets records stops last) {set : RuleSet}
    (hs : set ∈ sets) : set ∈ stops.map Stop.set := by
  induction h with
  | done => exact absurd hs List.not_mem_nil
  | held hh hw _ _ _ ihon =>
    rw [List.map_cons, List.map_append]
    rcases List.mem_cons.mp hs with rfl | hs
    · exact List.mem_cons_self
    · exact List.mem_cons_of_mem _ (List.mem_append_right _ (ihon hs))
  | skipped hh _ ihon =>
    rw [List.map_cons]
    rcases List.mem_cons.mp hs with rfl | hs
    · exact List.mem_cons_self
    · exact List.mem_cons_of_mem _ (ihon hs)

/-- Where the conditions hold, the walk stops at all children. -/
theorem children_of_holds (h : Walks environment sets records stops last) {stop : Stop}
    (hs : stop ∈ stops) (hh : stop.holds environment = true) {child : RuleSet}
    (hc : child ∈ stop.set.children) : child ∈ stops.map Stop.set := by
  induction h with
  | done => exact absurd hs List.not_mem_nil
  | held _ _ down _ ihdown ihon =>
    rw [List.map_cons, List.map_append]
    refine List.mem_cons_of_mem _ ?_
    rcases List.mem_cons.mp hs with rfl | hs
    · exact List.mem_append_left _ (down.mem_of_mem hc)
    · rcases List.mem_append.mp hs with hs | hs
      · exact List.mem_append_left _ (ihdown hs)
      · exact List.mem_append_right _ (ihon hs)
  | skipped hno _ ihon =>
    rw [List.map_cons]
    rcases List.mem_cons.mp hs with rfl | hs
    · rw [Stop.holds, hno] at hh
      cases hh
    · exact List.mem_cons_of_mem _ (ihon hs)

/-- A stop is at one of the rule sets that the walk is given, or at a child of another stop. -/
theorem mem_or_child (h : Walks environment sets records stops last) {stop : Stop}
    (hs : stop ∈ stops) : stop.set ∈ sets ∨ ∃ above ∈ stops, stop.set ∈ above.set.children := by
  induction h with
  | done => exact absurd hs List.not_mem_nil
  | held _ _ _ _ ihdown ihon =>
    rcases List.mem_cons.mp hs with rfl | hs
    · exact .inl List.mem_cons_self
    · rcases List.mem_append.mp hs with hs | hs
      · right
        rcases ihdown hs with hchild | ⟨above, ha, hchild⟩
        · exact ⟨_, List.mem_cons_self, hchild⟩
        · exact ⟨above, List.mem_cons_of_mem _ (List.mem_append_left _ ha), hchild⟩
      · rcases ihon hs with hmore | ⟨above, ha, hchild⟩
        · exact .inl (List.mem_cons_of_mem _ hmore)
        · exact .inr ⟨above, List.mem_cons_of_mem _ (List.mem_append_right _ ha), hchild⟩
  | skipped _ _ ihon =>
    rcases List.mem_cons.mp hs with rfl | hs
    · exact .inl List.mem_cons_self
    · rcases ihon hs with hmore | ⟨above, ha, hchild⟩
      · exact .inl (List.mem_cons_of_mem _ hmore)
      · exact .inr ⟨above, List.mem_cons_of_mem _ ha, hchild⟩

/-- The walk stops nowhere where no rule set has the number. -/
theorem not_mem_ids (h : Walks environment sets records stops last) {id : UInt32}
    (hi : ∀ node ∈ preorderAll sets, node.id ≠ id) : id ∉ stops.map fun stop => stop.set.id := by
  intro hm
  obtain ⟨stop, hs, he⟩ := List.mem_map.mp hm
  exact hi stop.set (h.sublist.subset (List.mem_map_of_mem hs)) he

/-- Where the conditions do not hold, the walk stops nowhere below, if no number is used twice. -/
theorem not_mem_of_not_holds (h : Walks environment sets records stops last)
    (hn : ((preorderAll sets).map RuleSet.id).Nodup) {stop : Stop} (hs : stop ∈ stops)
    (hh : stop.holds environment = false) {node : RuleSet}
    (hb : node ∈ preorderAll stop.set.children) : node.id ∉ stops.map fun stop => stop.set.id := by
  induction h with
  | done => exact absurd hs List.not_mem_nil
  | @held set more _ _ _ _ below behind hyes _ down on ihdown ihon =>
    obtain ⟨hnbelow, hnmore, hfirst, hfirst', hapart⟩ := RuleSet.ids_apart hn
    rw [List.map_cons, List.map_append, List.mem_cons, List.mem_append, not_or, not_or]
    rcases List.mem_cons.mp hs with rfl | hs
    · rw [Stop.holds, hyes] at hh
      cases hh
    · rcases List.mem_append.mp hs with hs | hs
      · have hset := down.sublist.subset (List.mem_map_of_mem hs)
        have hnode := RuleSet.mem_preorderAll_of_below set.children hset hb
        exact ⟨hfirst node hnode, ihdown hnbelow hs,
          on.not_mem_ids fun other ho he => hapart node hnode other ho he.symm⟩
      · have hset := on.sublist.subset (List.mem_map_of_mem hs)
        have hnode := RuleSet.mem_preorderAll_of_below more hset hb
        exact ⟨hfirst' node hnode, down.not_mem_ids fun other ho => hapart other ho node hnode,
          ihon hnmore hs⟩
  | @skipped set more _ _ behind hno on ihon =>
    obtain ⟨-, hnmore, hfirst, hfirst', hapart⟩ := RuleSet.ids_apart hn
    rw [List.map_cons, List.mem_cons, not_or]
    rcases List.mem_cons.mp hs with rfl | hs
    · exact ⟨hfirst node hb, on.not_mem_ids fun other ho he => hapart node hb other ho he.symm⟩
    · have hset := on.sublist.subset (List.mem_map_of_mem hs)
      have hnode := RuleSet.mem_preorderAll_of_below more hset hb
      exact ⟨hfirst' node hnode, ihon hnmore hs⟩

end Walks

end Rulebook
