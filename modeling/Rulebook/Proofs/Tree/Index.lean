import Mathlib.Data.Finset.Card
import Mathlib.Data.List.Induction
import Mathlib.Data.List.Nodup
import Rulebook.RuleTree
import Rulebook.Proofs.Compiler.Numbering

/-!
# What the index of a tree finds

The index of a tree keeps a place in the preorder for each number of a rule set and of a rule, and
goes down the tree again to look it up. No step of this leads out of the tree, and looking up a
number answers what a search through the rule sets answers: the last rule set with the number, and
the rule in the last rule set that has one with the number. Where no number is used twice, every
rule set and every rule of the tree is found by its own.
-/

namespace Rulebook

namespace RuleTree

/-- The places of the keys of rule sets, where the first of a list stands at `place`. -/
def indexKeys (keys : RuleSet → List UInt32) (places : Table Nat) (place : Nat) :
    List RuleSet → Table Nat
  | [] => places
  | set :: more =>
    indexKeys keys ((keys set).foldl (fun table key => table.insert key place) places)
      (place + 1) more

/-- The number of a rule set as the only key. -/
def setKeys (set : RuleSet) : List UInt32 := [set.id]

/-- The numbers of the rules of a rule set as keys. -/
def ruleKeys (set : RuleSet) : List UInt32 := set.head.rules.map Rule.id

/-- Paths that lead to rule sets are entered under the keys of these. -/
theorem indexPaths?_eq {root : RuleSet} {paths : List (List Nat)} {sets : List RuleSet}
    (h : paths.map root.at? = sets.map some) (setPlaces rulePlaces : Table Nat) (place : Nat) :
    indexPaths? root setPlaces rulePlaces place paths =
      some (indexKeys setKeys setPlaces place sets, indexKeys ruleKeys rulePlaces place sets) := by
  induction paths generalizing sets setPlaces rulePlaces place with
  | nil =>
    obtain rfl : sets = [] := List.map_eq_nil_iff.mp h.symm
    rfl
  | cons path more ih =>
    obtain ⟨set, others, rfl, hset, hmore⟩ := List.map_eq_cons_iff.mp h.symm
    rw [indexPaths?, ← hset, Option.bind_some, ih hmore.symm, indexKeys, indexKeys, ruleKeys,
      List.foldl_map]
    rfl

/-- The index of a tree has the rule sets in preorder. -/
theorem index?_eq (root : RuleSet) :
    index? root = some (indexKeys setKeys .empty 0 root.preorder,
      indexKeys ruleKeys .empty 0 root.preorder) :=
  indexPaths?_eq root.map_at?_paths _ _ _

/-- The last rule set is entered last. -/
theorem indexKeys_concat (keys : RuleSet → List UInt32) (places : Table Nat) (place : Nat)
    (sets : List RuleSet) (set : RuleSet) :
    indexKeys keys places place (sets ++ [set]) =
      (keys set).foldl (fun table key => table.insert key (place + sets.length))
        (indexKeys keys places place sets) := by
  induction sets generalizing places place with
  | nil => rfl
  | cons first more ih =>
    rw [List.cons_append, indexKeys, ih, indexKeys, List.length_cons, Nat.add_assoc,
      Nat.add_comm 1]

/-- After one place was entered for some keys, each of them leads there. -/
theorem find?_insertAll (keys : List UInt32) (table : Table Nat) (place : Nat) (key : UInt32) :
    (keys.foldl (fun table key => table.insert key place) table).find? key =
      if key ∈ keys then some place else table.find? key := by
  induction keys generalizing table with
  | nil => rfl
  | cons first more ih =>
    rw [List.foldl_cons, ih, Table.find?_insert]
    by_cases hm : key ∈ more
    · rw [if_pos hm, if_pos (List.mem_cons_of_mem _ hm)]
    · by_cases he : key = first
      · rw [if_neg hm, if_pos he, if_pos (he ▸ List.mem_cons_self)]
      · rw [if_neg hm, if_neg he, if_neg (List.not_mem_cons_of_ne_of_not_mem he hm)]

/-- A key leads to the last rule set that has it, and nowhere if none has. -/
theorem find?_indexKeys (keys : RuleSet → List UInt32) (sets : List RuleSet) (key : UInt32) :
    (∀ place ∈ (indexKeys keys .empty 0 sets).find? key, place < sets.length) ∧
      ((indexKeys keys .empty 0 sets).find? key).bind (fun place => sets[place]?) =
        (sets.filter fun set => (keys set).contains key).getLast? := by
  induction sets using List.reverseRecOn with
  | nil =>
    refine ⟨fun place hp => ?_, rfl⟩
    cases hp
  | append_singleton sets set ih =>
    rw [indexKeys_concat, find?_insertAll, Nat.zero_add, List.filter_append, List.length_append,
      List.length_singleton]
    by_cases hk : key ∈ keys set
    · have hset : ([set].filter fun set => (keys set).contains key) = [set] := by simp [hk]
      rw [if_pos hk, hset, List.getLast?_concat]
      refine ⟨fun place hp => ?_, ?_⟩
      · cases hp
        exact Nat.lt_succ_self _
      · simp
    · have hset : ([set].filter fun set => (keys set).contains key) = [] := by simp [hk]
      obtain ⟨hbound, hfound⟩ := ih
      rw [if_neg hk, hset, List.append_nil, ← hfound]
      refine ⟨fun place hp => Nat.lt_succ_of_lt (hbound place hp), ?_⟩
      refine Option.bind_congr fun place hp => ?_
      exact List.getElem?_append_left (hbound place hp)

/-- The numbers in a table are the keys that were entered. -/
theorem isSome_find?_indexKeys (keys : RuleSet → List UInt32) (sets : List RuleSet)
    (key : UInt32) :
    ((indexKeys keys .empty 0 sets).find? key).isSome ↔ key ∈ sets.flatMap keys := by
  induction sets using List.reverseRecOn with
  | nil =>
    have hnone : ((indexKeys keys .empty 0 []).find? key).isSome = false := rfl
    simp only [hnone, Bool.false_eq_true, List.flatMap_nil, List.not_mem_nil]
  | append_singleton sets set ih =>
    rw [indexKeys_concat, find?_insertAll, List.flatMap_append, List.flatMap_singleton,
      List.mem_append, ← ih]
    by_cases hk : key ∈ keys set
    · rw [if_pos hk]
      simp only [Option.isSome_some, hk, or_true]
    · rw [if_neg hk]
      simp only [hk, or_false]

section OfRoot

variable (root : RuleSet) (registry : Registry) (version : UInt64)

theorem setPlaces_ofRoot :
    (ofRoot root registry version).setPlaces = indexKeys setKeys .empty 0 root.preorder := by
  have h := index?_eq root
  simp only [ofRoot, h, Option.get_some]

theorem rulePlaces_ofRoot :
    (ofRoot root registry version).rulePlaces = indexKeys ruleKeys .empty 0 root.preorder := by
  have h := index?_eq root
  simp only [ofRoot, h, Option.get_some]

/-- The path at a place leads to the rule set at this place in preorder. -/
theorem node?_ofRoot (place : Nat) :
    (ofRoot root registry version).node? place = root.preorder[place]? := by
  have hpath : (ofRoot root registry version).paths[place]? = root.paths[place]? :=
    List.getElem?_toArray
  have hlead : root.paths[place]?.map root.at? = root.preorder[place]?.map some := by
    rw [← List.getElem?_map, ← List.getElem?_map, root.map_at?_paths]
  rw [node?, hpath]
  cases hp : root.paths[place]? with
  | none =>
    rw [hp, Option.map_none] at hlead
    rw [Option.map_eq_none_iff.mp hlead.symm]
    rfl
  | some path =>
    rw [hp, Option.map_some] at hlead
    obtain ⟨set, hset, hat⟩ := Option.map_eq_some_iff.mp hlead.symm
    rw [Option.bind_some, hset]
    exact hat.symm

/-- There is one path for each rule set. -/
theorem setCount_ofRoot :
    (ofRoot root registry version).setCount = root.preorder.length := by
  have hlength := congrArg List.length root.map_at?_paths
  rw [List.length_map, List.length_map] at hlength
  exact hlength

/-- A rule set is found as the last one with its number. -/
theorem find?_ofRoot (id : UInt32) :
    (ofRoot root registry version).find? id =
      (root.preorder.filter fun set => set.id == id).getLast? := by
  have hkeys : ∀ set : RuleSet, (setKeys set).contains id = (set.id == id) := fun set => by
    rw [setKeys, List.contains_cons, List.contains_nil, Bool.or_false, Bool.beq_comm]
  have hplaces := (find?_indexKeys setKeys root.preorder id).2
  simp only [hkeys] at hplaces
  rw [find?, setPlaces_ofRoot, ← hplaces]
  exact congrArg _ (funext (node?_ofRoot root registry version))

end OfRoot

/-- A rule is found in the last rule set that has one with its number. -/
theorem findRule?_ofRoot (root : RuleSet) (registry : Registry) (version : UInt64) (id : UInt32) :
    (ofRoot root registry version).findRule? id =
      (root.preorder.filter fun set => (ruleKeys set).contains id).getLast?.bind
        fun set => set.head.rules.find? fun rule => rule.id == id := by
  have hplaces := (find?_indexKeys ruleKeys root.preorder id).2
  rw [← hplaces, ← rulePlaces_ofRoot root registry version, Option.bind_assoc]
  simp only [findRule?, node?_ofRoot]
  rfl

/-- Where no number is used twice, a rule of the tree is found by its number. -/
theorem findRule?_of_mem {root : RuleSet} (hn : (root.allRules.map Rule.id).Nodup) {rule : Rule}
    (hr : rule ∈ root.allRules) (registry : Registry) (version : UInt64) :
    (ofRoot root registry version).findRule? rule.id = some rule := by
  rw [findRule?_ofRoot]
  obtain ⟨set, hs, hrule⟩ := List.mem_flatMap.mp hr
  have hset : set ∈ root.preorder.filter fun set => (ruleKeys set).contains rule.id :=
    List.mem_filter.mpr ⟨hs, List.contains_iff_mem.mpr (List.mem_map_of_mem hrule)⟩
  cases hl : (root.preorder.filter fun set => (ruleKeys set).contains rule.id).getLast? with
  | none =>
    rw [List.getLast?_eq_none_iff.mp hl] at hset
    exact absurd hset List.not_mem_nil
  | some last =>
    rw [Option.bind_some]
    obtain ⟨hlast, hhas⟩ := List.mem_filter.mp (List.mem_of_getLast? hl)
    cases hf : last.head.rules.find? fun other => other.id == rule.id with
    | none =>
      obtain ⟨other, ho, he⟩ := List.mem_map.mp (List.contains_iff_mem.mp hhas)
      exact absurd (beq_iff_eq.mpr he) (List.find?_eq_none.mp hf other ho)
    | some other =>
      have hsame : other.id = rule.id := by simpa using List.find?_some hf
      have ho : other ∈ root.allRules :=
        List.mem_flatMap.mpr ⟨last, hlast, List.mem_of_find?_eq_some hf⟩
      rw [List.inj_on_of_nodup_map hn ho hr hsame]

/-- The numbers of a table are those under which something is found. -/
theorem mem_numbers_iff {table : Table Nat} {key : UInt32} :
    key ∈ table.entries.map Prod.fst ↔ (table.find? key).isSome := by
  rw [Option.isSome_iff_exists, List.mem_map]
  constructor
  · rintro ⟨⟨number, place⟩, hentry, rfl⟩
    exact ⟨place, Table.find?_eq_some_iff.mpr hentry⟩
  · rintro ⟨place, hfind⟩
    exact ⟨(key, place), Table.find?_eq_some_iff.mp hfind, rfl⟩

/-- A table that has exactly some keys has one entry for each different key. -/
theorem size_eq_card {table : Table Nat} {keys : List UInt32}
    (h : ∀ key, (table.find? key).isSome ↔ key ∈ keys) : table.size = keys.toFinset.card := by
  have hnodup : (table.entries.map Prod.fst).Nodup :=
    List.pairwise_map.mpr (table.ascending.imp fun hlt => UInt32.ne_of_lt hlt)
  have hsame : keys.toFinset = (table.entries.map Prod.fst).toFinset := by
    ext key
    rw [List.mem_toFinset, List.mem_toFinset, mem_numbers_iff, h]
  rw [hsame, List.toFinset_card_of_nodup hnodup, List.length_map, Table.size]

/-- The numbers of rules are counted once each. -/
theorem ruleCount_ofRoot (root : RuleSet) (registry : Registry) (version : UInt64) :
    (ofRoot root registry version).ruleCount = (root.allRules.map Rule.id).toFinset.card := by
  have hkeys : root.preorder.flatMap ruleKeys = root.allRules.map Rule.id := by
    rw [RuleSet.allRules, List.map_flatMap]
    rfl
  refine size_eq_card fun key => ?_
  rw [rulePlaces_ofRoot, isSome_find?_indexKeys, hkeys]

/-- Where no key is used twice, the last of a list with a key is the only one. -/
theorem getLast?_filter_eq_some_iff {α : Type} {key : α → UInt32} {list : List α}
    (hn : (list.map key).Nodup) {number : UInt32} {item : α} :
    (list.filter fun other => key other == number).getLast? = some item ↔
      item ∈ list ∧ key item = number := by
  have hmem : ∀ other, other ∈ list.filter (fun other => key other == number) ↔
      other ∈ list ∧ key other = number := fun other => by
    rw [List.mem_filter, beq_iff_eq]
  constructor
  · intro hl
    exact (hmem item).mp (List.mem_of_getLast? hl)
  · intro hitem
    have hne : list.filter (fun other => key other == number) ≠ [] :=
      List.ne_nil_of_mem ((hmem item).mpr hitem)
    have hlast := (hmem _).mp (List.getLast_mem hne)
    rw [List.getLast?_eq_some_getLast hne,
      List.inj_on_of_nodup_map hn hlast.1 hitem.1 (hlast.2.trans hitem.2.symm)]

/-- The index of a tree answers what a plain traversal of the rule sets below a root answers. -/
structure Indexes (tree : RuleTree) (root : RuleSet) : Prop where
  /-- The tree has the root. -/
  root_eq : tree.root = root
  /-- Every path of the index leads to a rule set. -/
  leads : ∀ place < tree.paths.size, ∃ set, tree.node? place = some set
  /-- Where a rule set is entered, there is a path. -/
  setPlace_lt : ∀ id, ∀ place ∈ tree.setPlaces.find? id, place < tree.paths.size
  /-- Where a rule is entered, there is a path. -/
  rulePlace_lt : ∀ id, ∀ place ∈ tree.rulePlaces.find? id, place < tree.paths.size
  /-- The rule sets are listed in preorder. -/
  all_eq : tree.all = root.preorder
  /-- The rule sets are counted. -/
  setCount_eq : tree.setCount = root.preorder.length
  /-- The last rule set with a number is found, and none where there is none. -/
  find?_eq : ∀ id, tree.find? id = (root.preorder.filter fun set => set.id == id).getLast?
  /-- The first rule with a number in the last rule set that has one is found, and none where there
  is none. -/
  findRule?_eq : ∀ id, tree.findRule? id =
    (root.preorder.filter fun set => (set.head.rules.map Rule.id).contains id).getLast?.bind
      fun set => set.head.rules.find? fun rule => rule.id == id
  /-- The different numbers of rules are counted. -/
  ruleCount_eq : tree.ruleCount = (root.allRules.map Rule.id).toFinset.card
  /-- Where no number of a rule set is used twice, the only rule set with a number is found. -/
  find?_iff : (root.preorder.map RuleSet.id).Nodup →
    ∀ id set, tree.find? id = some set ↔ set ∈ root.preorder ∧ set.id = id
  /-- Where no number of a rule is used twice, the only rule with a number is found. -/
  findRule?_iff : (root.allRules.map Rule.id).Nodup →
    ∀ id rule, tree.findRule? id = some rule ↔ rule ∈ root.allRules ∧ rule.id = id

/-- A rule that is found is a rule of the tree with the number. -/
theorem mem_of_findRule? {root : RuleSet} {registry : Registry} {version : UInt64} {id : UInt32}
    {rule : Rule} (h : (ofRoot root registry version).findRule? id = some rule) :
    rule ∈ root.allRules ∧ rule.id = id := by
  rw [findRule?_ofRoot] at h
  obtain ⟨set, hset, hrule⟩ := Option.bind_eq_some_iff.mp h
  have hs := List.mem_of_mem_filter (List.mem_of_getLast? hset)
  refine ⟨List.mem_flatMap.mpr ⟨set, hs, List.mem_of_find?_eq_some hrule⟩, ?_⟩
  simpa using List.find?_some hrule

/-- Every root has an index: no path that is entered leads out of the tree. The tree with the root
answers by its index what a plain traversal answers, whatever the numbers are. -/
theorem indexes_ofRoot (root : RuleSet) (registry : Registry) (version : UInt64) :
    (∃ places, index? root = some places) ∧ (ofRoot root registry version).Indexes root := by
  have hcount := setCount_ofRoot root registry version
  refine ⟨Option.isSome_iff_exists.mp (isSome_index? root), ?_⟩
  constructor
  case root_eq => rfl
  case leads =>
    intro place hp
    have hlt : place < root.preorder.length := lt_of_lt_of_eq hp hcount
    exact ⟨root.preorder[place], (node?_ofRoot root registry version place).trans
      (List.getElem?_eq_getElem hlt)⟩
  case setPlace_lt =>
    intro id place hp
    rw [setPlaces_ofRoot] at hp
    exact lt_of_lt_of_eq ((find?_indexKeys setKeys root.preorder id).1 place hp) hcount.symm
  case rulePlace_lt =>
    intro id place hp
    rw [rulePlaces_ofRoot] at hp
    exact lt_of_lt_of_eq ((find?_indexKeys ruleKeys root.preorder id).1 place hp) hcount.symm
  case all_eq => exact all_ofRoot root registry version
  case setCount_eq => exact hcount
  case find?_eq => exact find?_ofRoot root registry version
  case findRule?_eq => exact findRule?_ofRoot root registry version
  case ruleCount_eq => exact ruleCount_ofRoot root registry version
  case find?_iff =>
    intro hn id set
    rw [find?_ofRoot]
    exact getLast?_filter_eq_some_iff hn
  case findRule?_iff =>
    intro hn id rule
    refine ⟨mem_of_findRule?, fun ⟨hr, hid⟩ => ?_⟩
    rw [← hid]
    exact findRule?_of_mem hn hr registry version

/-- A rule set with one condition that is named like it. -/
def named (parent : Option UInt32) (kind : NodeKind) (name : String) : RuleSet.Head where
  id := 1
  parent := parent
  kind := kind
  description := name
  evaluative :=
    [{ id := 7, label := none, expression := name, operator := "POPULATED"
       target := ⟨1, 1, "Owner"⟩, record := .new, negated := false, operands := []
       clause := .populated }]

/-- A tree of two rule sets with the same number, whose rules have the same number too. -/
def twice : RuleSet := ⟨named none .root "above", [⟨named (some 1) .flow "below", []⟩]⟩

/-- Where numbers are used twice, the later rule set and the later rule are found. -/
theorem indexes_ofRoot_twice :
    ((ofRoot twice .empty 1).find? 1).map (fun set => set.head.description) = some "below" ∧
    ((ofRoot twice .empty 1).findRule? 7).map Rule.expression = some "below" ∧
    (ofRoot twice .empty 1).findRule? 1 = none ∧
    (ofRoot twice .empty 1).setCount = 2 ∧ (ofRoot twice .empty 1).ruleCount = 1 := by
  obtain ⟨-, h⟩ := indexes_ofRoot twice .empty 1
  rw [h.find?_eq, h.findRule?_eq, h.findRule?_eq, h.setCount_eq, h.ruleCount_eq]
  exact ⟨rfl, rfl, rfl, rfl, rfl⟩

end RuleTree

end Rulebook
